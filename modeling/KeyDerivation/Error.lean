import KeyDerivation.Bytes

/-!
# What can go wrong in a derivation

The errors of the library as causes, each with two texts: the sentence shown to a
person (`KeyDerivation.KdfError.message`) and the one-line form that names the cause
and its numbers in a report (`KeyDerivation.KdfError.diagnostic`).

The limits on a request are a type of their own, `KeyDerivation.LimitFault`: breaking
one of them is found before anything is computed, and nothing else about a request
can be wrong.
-/

namespace KeyDerivation

/-- **A broken limit** on the round count or the length of the derived key. -/
inductive LimitFault
  /-- No rounds are asked for. -/
  | zeroRounds
  /-- A key of no bytes is asked for. -/
  | emptyKey
  /-- More bytes are asked for than the pseudorandom function can yield. -/
  | keyTooLong (requested max : Nat)
  deriving DecidableEq

/-- **An error of a derivation.** -/
inductive KdfError
  /-- The request breaks a limit. -/
  | limit (fault : LimitFault)
  /-- The buffer is not as long as the parameters say. -/
  | lengthMismatch (expected actual : Nat)
  /-- The cancellation flag was found raised. -/
  | cancelled
  /-- The derived key is not the expected one. -/
  | mismatch
  deriving DecidableEq

/-! ### Texts -/

/-- The sentence that explains a broken limit. -/
def LimitFault.message : LimitFault → String
  | zeroRounds => "iteration count must be at least 1"
  | emptyKey => "requested derived key length must be at least 1"
  | keyTooLong requested max =>
    s!"requested derived key length {requested} exceeds maximum {max} ((2^32 - 1) * hLen)"

/-- **The sentence that explains an error.** -/
def KdfError.message : KdfError → String
  | limit fault => fault.message
  | lengthMismatch expected actual =>
    s!"output buffer length {actual} does not match configured length {expected}"
  | cancelled => "key derivation was cancelled"
  | mismatch => "derived key does not match"

/-- The one-line form of a cause with numbers: each after its name, between braces. -/
def diagnosticWith (cause : String) (numbers : List (String × Nat)) : String :=
  cause ++ " \x7b "
    ++ ", ".intercalate (numbers.map fun (name, value) => name ++ ": " ++ toString value) ++ " \x7d"

/-- The one-line form of a broken limit. -/
def LimitFault.diagnostic : LimitFault → String
  | zeroRounds => "ZeroRounds"
  | emptyKey => "EmptyOutput"
  | keyTooLong requested max =>
    diagnosticWith "OutputTooLong" [("requested", requested), ("max", max)]

/-- **The one-line form of an error**: its cause, with its numbers if it has any. -/
def KdfError.diagnostic : KdfError → String
  | limit fault => fault.diagnostic
  | lengthMismatch expected actual =>
    diagnosticWith "OutputLenMismatch" [("expected", expected), ("actual", actual)]
  | cancelled => "Cancelled"
  | mismatch => "VerificationFailed"

end KeyDerivation
