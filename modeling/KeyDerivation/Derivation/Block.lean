import KeyDerivation.Journal

/-!
# One block of a derived key

The block numbered `i` is the exclusive or of a chain of outputs of the
pseudorandom function, all under the password: the first one of the salt and the
number `i`, every further one of the output before it. There are as many links as
the request has rounds.

The chain is computed in two arrays, `KeyDerivation.Scratch`, that all blocks of a
derivation share: what one block leaves in them is there when the next begins. They
are as long as the widest block there is; `KeyDerivation.Scratch.front` is the part in
use.

The computation looks at the cancellation flag before the first link, and before
every link whose round is a multiple of `KeyDerivation.pollInterval`. A raised flag
ends it there, and leaves the arrays as they are at that moment.
-/

namespace KeyDerivation

/-- **What a key is derived from**: password, salt and the number of rounds. -/
structure Request where
  password : Bytes
  salt : Bytes
  rounds : UInt32

theorem Request.toNat_rounds_pos {request : Request} (h : request.rounds ≠ 0) :
    0 < request.rounds.toNat :=
  Nat.pos_of_ne_zero fun hzero => h (UInt32.toNat_inj.mp hzero)

/-- How many rounds may pass between two looks at the cancellation flag. -/
def pollInterval : Nat := 1024

/-- **The working arrays of a derivation**: the last link of the chain, and the
exclusive or of all links so far. -/
structure Scratch where
  last : Buffer maxWidth
  total : Buffer maxWidth

namespace Scratch

variable {w : Nat}

/-- The arrays before the first block. -/
def zeros : Scratch := ⟨.zeros maxWidth, .zeros maxWidth⟩

/-- The part of an array in use: as many bytes at its front as a block has. -/
def front (array : Buffer maxWidth) (w : Nat) : Bytes := array.toList.take w

/-- The arrays once the first link of a chain is in them. -/
def begin (scratch : Scratch) (first : Buffer w) (narrow : w ≤ maxWidth) : Scratch :=
  { last := scratch.last.overwrite 0 first.toList (by simpa using narrow)
    total := scratch.total.overwrite 0 first.toList (by simpa using narrow) }

/-- The arrays after one more link. It takes the place of the link before it, which it
was made from. -/
def add (scratch : Scratch) (next : Buffer w) (narrow : w ≤ maxWidth) : Scratch :=
  let last := scratch.last.overwrite 0 next.toList (by simpa using narrow)
  -- The exclusive or is taken with the new link, which stands in the array by now.
  { last := last
    total := scratch.total.xorFront last w }

end Scratch

/-- The message of the first link: the salt, and the number of the block in four
bytes. -/
def firstPieces (salt : Bytes) (index : UInt32) : List Bytes := [salt, bigEndian 4 index.toNat]

/-- The look at the flag that is due before a round, if one is. -/
def pollBefore (flag : CancelFlag) (round : Nat) : Journaled Bool :=
  if round % pollInterval = 0 then poll flag else pure false

/-- **Further links**: the `count` rounds from `round` on, for a chain that has seen
the rounds before. Says whether it got to the end, which it does unless the flag was
found raised. -/
def continueChain (prf : BlockPrf) (flag : CancelFlag) (password : Bytes) :
    (count round : Nat) → Scratch → Journaled (Bool × Scratch)
  | 0, _, scratch => return (true, scratch)
  | count + 1, round, scratch => do
    if ← pollBefore flag round then
      return (false, scratch)
    else
      let next ← invoke prf.toPrf password [Scratch.front scratch.last prf.width]
      continueChain prf flag password count (round + 1) (scratch.add next prf.width_le)

/-- **The block numbered `index`**, computed in the working arrays. Says whether it is
complete, which it is unless the flag was found raised. -/
def deriveBlock (prf : BlockPrf) (flag : CancelFlag) (request : Request) (index : UInt32)
    (scratch : Scratch) : Journaled (Bool × Scratch) := do
  if ← poll flag then
    return (false, scratch)
  else
    let first ← invoke prf.toPrf request.password (firstPieces request.salt index)
    continueChain prf flag request.password (request.rounds.toNat - 1) 2
      (scratch.begin first prf.width_le)

end KeyDerivation
