import KeyDerivation.Recorder
import KeyDerivation.Proofs.Hash.Queue
import KeyDerivation.Proofs.Hash.Digest
import KeyDerivation.Proofs.Hash.Reuse
import KeyDerivation.Proofs.Hash.Closing
import KeyDerivation.Proofs.Hash.Strengthening
import KeyDerivation.Proofs.Hmac.Pads
import KeyDerivation.Proofs.Derivation.Latency
import KeyDerivation.Proofs.Derivation.Rejection
import KeyDerivation.Proofs.Derivation.Events
import KeyDerivation.Proofs.Derivation.Passwords
import KeyDerivation.Proofs.Derivation.Parameters
import KeyDerivation.Proofs.Derivation.Numbering
import KeyDerivation.Proofs.Derivation.Rounds
import KeyDerivation.Proofs.Derivation.Verification
import KeyDerivation.Proofs.Recording
import KeyDerivation.Proofs.KnownAnswer.Tables
