import KeyDerivation.Derivation.Block
import KeyDerivation.Derivation.Limits
import KeyDerivation.Derivation.Segment
import KeyDerivation.Hmac

/-!
# Deriving a key

Password-based key derivation as in RFC 8018, section 5.2 (PBKDF2), over any
pseudorandom function whose output is a usable block. A request is checked first;
then the caller's buffer is filled block by block.

`KeyDerivation.deriveCancellable` is the derivation, and it ends in one of three ways:

* the request breaks a limit: the buffer is left as it is, and nothing is called or
  polled;
* the flag was found raised: the **whole** buffer is zeroed, blocks that were finished
  and blocks that were never reached alike;
* the buffer holds the key.

The other entry points are this one with a flag that stays down, on a buffer of the
caller's (`KeyDerivation.derive`), on a stretch of a larger one
(`KeyDerivation.deriveWithin`), or on a new one (`KeyDerivation.deriveFresh`,
`KeyDerivation.deriveKey`). `KeyDerivation.verify` compares the key with an expected one.
-/

namespace KeyDerivation

/-- **How a derivation ended**: its status, and the caller's buffer afterwards. -/
structure Outcome (n : Nat) where
  status : Except KdfError Unit
  buffer : Buffer n

variable {n : Nat}

/-! ### The engine -/

/-- Fills the segments of a buffer one by one, each with the front of its block. Says
whether all of them were filled, which they are unless the flag was found raised. -/
def fillSegments (prf : BlockPrf) (flag : CancelFlag) (request : Request) :
    List (Segment prf.width n) → Scratch → Buffer n → Journaled (Bool × Buffer n)
  | [], _, buffer => return (true, buffer)
  | segment :: rest, scratch, buffer => do
    let (completed, scratch) ← deriveBlock prf flag request segment.index scratch
    if completed then
      fillSegments prf flag request rest scratch
        (segment.write scratch.total prf.width_le buffer)
    else
      return (false, buffer)

/-- Derives a key for a request within the limits. -/
def fill (prf : BlockPrf) (flag : CancelFlag) (request : Request) (buffer : Buffer n) :
    Journaled (Outcome n) := do
  emit (.started request.rounds.toNat n prf.width (Segment.count prf.width n))
  let (completed, filled) ←
    fillSegments prf flag request (Segment.plan prf.width n) .zeros buffer
  if completed then
    return ⟨.ok (), filled⟩
  else
    emit .cancelled
    -- Segments in front of the one that was given up hold parts of the key.
    return ⟨.error .cancelled, filled.clear 0 n⟩

/-- **Deriving a key that may be cancelled.** Fills the buffer with the key. -/
def deriveCancellable (prf : BlockPrf) (flag : CancelFlag) (request : Request)
    (buffer : Buffer n) : Journaled (Outcome n) := do
  match ← checkLimits prf.width request.rounds n with
  | .error e => return ⟨.error e, buffer⟩
  | .ok () => fill prf flag request buffer

/-! ### Entry points -/

/-- **Deriving a key** into a buffer. -/
def derive (prf : BlockPrf) (request : Request) (buffer : Buffer n) : Journaled (Outcome n) :=
  deriveCancellable prf .never request buffer

/-- Derives into the `n` bytes of a larger buffer that start at `offset`. -/
def deriveWithin {m : Nat} (prf : BlockPrf) (flag : CancelFlag) (request : Request)
    (outer : Buffer m) (offset n : Nat) (inside : offset + n ≤ m) : Journaled (Outcome m) := do
  let outcome ← deriveCancellable prf flag request (outer.stretch offset n inside)
  return ⟨outcome.status, outer.splice offset outcome.buffer inside⟩

/-- Derives a key of `n` bytes into a new buffer. -/
def deriveFresh (prf : BlockPrf) (request : Request) (n : Nat) :
    Journaled (Except KdfError (Buffer n)) := do
  let outcome ← derive prf request (Buffer.zeros n)
  return outcome.status.map fun _ => outcome.buffer

/-- Derives a key of `n` bytes into a new buffer, which is made only if the request
is within the limits. -/
def deriveKey (prf : BlockPrf) (request : Request) (n : Nat) :
    Journaled (Except KdfError (Buffer n)) := do
  match ← checkLimits prf.width request.rounds n with
  | .error e => return .error e
  | .ok () => deriveFresh prf request n

/-- **Verifying a key**: derives one as long as the expected key and compares. -/
def verify (prf : BlockPrf) (expected : Bytes) (request : Request) :
    Journaled (Except KdfError Unit) := do
  match ← deriveKey prf request expected.length with
  | .error e => return .error e
  | .ok key =>
    if key.toList = expected then
      return .ok ()
    else
      emit .mismatched
      return .error .mismatch

/-! ### The derivations in use -/

/-- Derives a key with HMAC-SHA-1. -/
def deriveHmacSha1 (request : Request) (buffer : Buffer n) : Journaled (Outcome n) :=
  derive hmacSha1 request buffer

/-- Derives a key with HMAC-SHA-256. -/
def deriveHmacSha256 (request : Request) (buffer : Buffer n) : Journaled (Outcome n) :=
  derive hmacSha256 request buffer

/-- Derives a key with HMAC-SHA-512. -/
def deriveHmacSha512 (request : Request) (buffer : Buffer n) : Journaled (Outcome n) :=
  derive hmacSha512 request buffer

end KeyDerivation
