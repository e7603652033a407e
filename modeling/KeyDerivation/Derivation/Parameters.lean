import KeyDerivation.Derivation.Derive

/-!
# Parameters checked in advance

A round count and a key length that are used again and again can be checked once.
`KeyDerivation.Parameters` is such a pair: it was within the limits for a
pseudorandom function of some width. It does not remember that width, so a
derivation with a narrower function may still find the key too long; a wider one
never does.
-/

namespace KeyDerivation

/-- **A round count and a key length**, neither of them zero. -/
structure Parameters where
  rounds : UInt32
  keyLength : Nat
  rounds_ne_zero : rounds ≠ 0
  keyLength_pos : 0 < keyLength
  deriving DecidableEq

namespace Parameters

/-- **Checks a pair** against the limits for a pseudorandom function of the given
width. -/
def make (width : Nat) (rounds : UInt32) (keyLength : Nat) :
    Journaled (Except KdfError Parameters) :=
  match h : limitFault? width rounds keyLength with
  | some fault => reject fault
  | none =>
    let limits := limits_of_limitFault?_eq_none h
    return .ok ⟨rounds, keyLength, limits.1, limits.2.1⟩

variable (parameters : Parameters)

/-- What these parameters derive a key from, for a password and a salt. -/
def request (password salt : Bytes) : Request := ⟨password, salt, parameters.rounds⟩

/-- **Derives into a buffer** of exactly the configured length. Any other buffer is
refused before anything else, and left as it is. -/
def derive {n : Nat} (prf : BlockPrf) (password salt : Bytes) (buffer : Buffer n) :
    Journaled (Outcome n) :=
  if n = parameters.keyLength then
    KeyDerivation.derive prf (parameters.request password salt) buffer
  else
    return ⟨.error (.lengthMismatch parameters.keyLength n), buffer⟩

/-- Derives a key of the configured length into a new buffer. -/
def deriveKey (prf : BlockPrf) (password salt : Bytes) :
    Journaled (Except KdfError (Buffer parameters.keyLength)) :=
  KeyDerivation.deriveKey prf (parameters.request password salt) parameters.keyLength

end Parameters

end KeyDerivation
