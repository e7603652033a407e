import KeyDerivation.Hash.Basic

/-!
# Pseudorandom functions

A pseudorandom function takes a key and a message and yields a fixed number of
bytes. It is deterministic, and defined for every key and message, empty ones
included. As with a hash, the message is taken in pieces: a **context** is started
with the key, absorbs pieces, and has an output at any time.

`KeyDerivation.Prf` puts no bound on the width of that output.
`KeyDerivation.BlockPrf` is a function whose width lies between one byte and
`KeyDerivation.maxWidth`; only such a one can drive a key derivation.
-/

namespace KeyDerivation

/-- **A pseudorandom function** with outputs of `width` bytes. -/
structure Prf where
  width : Nat
  /-- Computations under way. -/
  Context : Type
  /-- The computation for a key, with nothing of the message absorbed. -/
  start : Bytes → Context
  absorb : Context → Bytes → Context
  output : Context → Buffer width

namespace Prf

variable (prf : Prf)

/-- The context for a key after absorbing the pieces of a message. -/
def context (key : Bytes) (pieces : List Bytes) : prf.Context :=
  pieces.foldl prf.absorb (prf.start key)

/-- **The output** for a key and a message absorbed in the given pieces. -/
def value (key : Bytes) (pieces : List Bytes) : Buffer prf.width :=
  prf.output (prf.context key pieces)

variable {prf} in
/-- Writes the output of a context into the first bytes of a buffer, whose other
bytes stay; a buffer shorter than the output is refused. -/
def finish? {n : Nat} (context : prf.Context) (out : Buffer n) : Option (Buffer n) :=
  out.writeFront? (prf.output context).toList

/-- The output for a message in one piece, written into the first bytes of a
buffer. -/
def compute? {n : Nat} (key message : Bytes) (out : Buffer n) : Option (Buffer n) :=
  finish? (prf.context key [message]) out

/-- **Pieces do not matter**: no output tells two neighbouring pieces from their
concatenation. -/
def Streams : Prop :=
  ∀ (key a b : Bytes) (before after : List Bytes),
    prf.value key (before ++ a :: b :: after) = prf.value key (before ++ (a ++ b) :: after)

end Prf

/-- **A pseudorandom function that can drive a derivation**: its output is a block
of at least one byte and at most `maxWidth` bytes. -/
structure BlockPrf extends Prf where
  width_pos : 0 < width := by decide
  width_le : width ≤ maxWidth := by decide

end KeyDerivation
