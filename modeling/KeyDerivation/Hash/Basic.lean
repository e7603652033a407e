import KeyDerivation.Buffer

/-!
# Hash functions as seen from outside

What a construction over a hash may use, and nothing else: a state to start from,
absorbing bytes, and the digest of what has been absorbed so far. The sizes are
part of the type, bounded so that a digest fits where a key of one block does.

`KeyDerivation.StreamingHash.Streams` is the law that makes such a state a *hash of a
message*: absorbing two pieces one after the other can never be told from absorbing
them at once.
-/

namespace KeyDerivation

/-- The longest block a hash function may have, in bytes. -/
def maxBlockLength : Nat := 128

/-- The longest output of a hash or pseudorandom function, in bytes. -/
def maxWidth : Nat := 64

/-- **A hash function seen from outside**: its sizes in bytes, its states, and the
digest of everything a state has absorbed. -/
structure StreamingHash where
  blockLength : Nat
  digestLength : Nat
  /-- The states a computation runs through. -/
  State : Type
  /-- The state that has absorbed nothing. -/
  start : State
  absorb : State → Bytes → State
  digest : State → Buffer digestLength
  digestLength_le_blockLength : digestLength ≤ blockLength := by decide
  blockLength_le : blockLength ≤ maxBlockLength := by decide
  digestLength_le : digestLength ≤ maxWidth := by decide

namespace StreamingHash

variable (hash : StreamingHash)

/-- The state after absorbing the pieces of a message one after the other. -/
def absorbAll (pieces : List Bytes) : hash.State :=
  pieces.foldl hash.absorb hash.start

/-- **The digest of a message** absorbed in one piece. -/
def value (message : Bytes) : Buffer hash.digestLength :=
  hash.digest (hash.absorb hash.start message)

/-- **Pieces do not matter**: no digest tells two neighbouring pieces from their
concatenation. -/
def Streams : Prop :=
  ∀ (a b : Bytes) (before after : List Bytes),
    hash.digest (hash.absorbAll (before ++ a :: b :: after)) =
      hash.digest (hash.absorbAll (before ++ (a ++ b) :: after))

end StreamingHash

end KeyDerivation
