import KeyDerivation.Derivation.Block
import KeyDerivation.Derivation.Segment
import KeyDerivation.Proofs.Hash.Blocks

/-!
# Chains of outputs, and the key they make

What a derivation has to compute, said without arrays, flags or segments:

* `KeyDerivation.Prf.link` – the chain of outputs that belongs to a first message. Links are
  counted from zero, so link `j` is the one of round `j + 1`;
* `KeyDerivation.Prf.block` – the exclusive or of the first links, as many as there are
  rounds;
* `KeyDerivation.Prf.key` – the first bytes of all blocks, one after the other.

The first message of a block is left open here, since a pseudorandom function may tell
a message in pieces from a whole one.

The working arrays of a derivation are as long as the widest block and full of what
came before. `KeyDerivation.Scratch.Holds` says what their fronts hold, and that is all
the next step depends on (`KeyDerivation.Scratch.holds_begin`,
`KeyDerivation.Scratch.Holds.add`).
-/

namespace KeyDerivation

variable {w : Nat}

/-- The bytewise exclusive or. -/
def Buffer.xor (x y : Buffer w) : Buffer w := x.zipWith (· ^^^ ·) y

/-- The exclusive or of any number of buffers. -/
def xorAll (buffers : List (Buffer w)) : Buffer w := buffers.foldl Buffer.xor (Buffer.zeros w)

theorem xorAll_singleton (x : Buffer w) : xorAll [x] = x := by
  refine Vector.ext fun i hi => ?_
  simp [xorAll, Buffer.xor, Buffer.zeros]

theorem xorAll_append_singleton (buffers : List (Buffer w)) (x : Buffer w) :
    xorAll (buffers ++ [x]) = (xorAll buffers).xor x := by
  rw [xorAll, List.foldl_append]
  rfl

namespace Prf

variable (prf : Prf) (password : Bytes)

/-! ### Links, blocks, keys -/

/-- **The links of a chain**, counted from zero: the output for the first message, and
then, over and over, the output for the link before. -/
def link (pieces : List Bytes) : Nat → Buffer prf.width
  | 0 => prf.value password pieces
  | j + 1 => prf.value password [(link pieces j).toList]

/-- **A block**: the exclusive or of the first `rounds` links. -/
def block (pieces : List Bytes) (rounds : Nat) : Buffer prf.width :=
  xorAll ((List.range rounds).map (prf.link password pieces))

/-- **A key of `n` bytes**: the front of as many blocks as it takes, which are numbered
from one and begin with the messages given. -/
def key (pieces : Nat → List Bytes) (rounds n : Nat) : Bytes :=
  (joined ((List.range ((n + prf.width - 1) / prf.width)).map fun i =>
    prf.block password (pieces (i + 1)) rounds)).take n

theorem block_one (pieces : List Bytes) :
    prf.block password pieces 1 = prf.link password pieces 0 :=
  xorAll_singleton _

theorem block_succ (pieces : List Bytes) (rounds : Nat) :
    prf.block password pieces (rounds + 1) =
      (prf.block password pieces rounds).xor (prf.link password pieces rounds) := by
  rw [block, List.range_succ, List.map_append, List.map_singleton, xorAll_append_singleton]
  rfl

/-- **A stretch of the key** is the front of its block. -/
theorem take_drop_key (pieces : Nat → List Bytes) (rounds n : Nat) {i : Nat}
    (hi : i < (n + prf.width - 1) / prf.width) :
    ((prf.key password pieces rounds n).drop (i * prf.width)).take prf.width =
      (prf.block password (pieces (i + 1)) rounds).toList.take (n - i * prf.width) := by
  have hblock := take_drop_joined
    ((List.range ((n + prf.width - 1) / prf.width)).map fun i =>
      prf.block password (pieces (i + 1)) rounds) (by simpa using hi)
  rw [List.getElem_map, List.getElem_range] at hblock
  rw [key, List.drop_take, List.take_take, Nat.min_comm, ← List.take_take, hblock]

end Prf

/-! ### The working arrays -/

/-- Combining the front of an array with that of another one leaves their exclusive or. -/
theorem Buffer.take_xorFront {m : Nat} (x y : Buffer m) (x' y' : Buffer w) (hw : w ≤ m)
    (hx : x.toList.take w = x'.toList) (hy : y.toList.take w = y'.toList) :
    (x.xorFront y w).toList.take w = (x'.xor y').toList := by
  refine List.ext_getElem (by simp [hw]) fun i hi _ => ?_
  have hin : i < w := by
    rw [List.length_take] at hi
    omega
  have hxi : x[i] = x'[i] := by
    have := List.getElem_of_eq hx (i := i) (by simp; omega)
    simpa using this
  have hyi : y[i] = y'[i] := by
    have := List.getElem_of_eq hy (i := i) (by simp; omega)
    simpa using this
  simp [Buffer.xorFront, Buffer.xor, hin, hxi, hyi]

namespace Scratch

/-- The fronts of the working arrays hold the last link and the exclusive or of all. -/
structure Holds (scratch : Scratch) (last total : Buffer w) : Prop where
  front_last : front scratch.last w = last.toList
  front_total : front scratch.total w = total.toList

theorem front_overwrite (array : Buffer maxWidth) (x : Buffer w)
    (fits : 0 + x.toList.length ≤ maxWidth) :
    front (array.overwrite 0 x.toList fits) w = x.toList := by
  have h := Buffer.take_overwrite_zero array x.toList fits
  rwa [Vector.length_toList] at h

/-- **The first link of a chain** replaces whatever an earlier block left behind. -/
theorem holds_begin (scratch : Scratch) (first : Buffer w) (narrow : w ≤ maxWidth) :
    (scratch.begin first narrow).Holds first first :=
  ⟨front_overwrite _ _ _, front_overwrite _ _ _⟩

/-- **One more link** takes the place of the last one and joins the exclusive or. -/
theorem Holds.add {scratch : Scratch} {last total : Buffer w} (h : scratch.Holds last total)
    (next : Buffer w) (narrow : w ≤ maxWidth) :
    (scratch.add next narrow).Holds next (total.xor next) :=
  ⟨front_overwrite _ _ _,
    Buffer.take_xorFront _ _ _ _ narrow h.front_total (front_overwrite _ _ _)⟩

end Scratch

end KeyDerivation
