import KeyDerivation.Buffer

/-!
# Cutting a key into segments

A key of `n` bytes is filled from the front in stretches of one block, `w` bytes
each, the last one perhaps shorter. `KeyDerivation.Segment` is such a stretch with the
block it is cut from, and `KeyDerivation.Segment.plan` lists them all.

Blocks are numbered from one, in a word of 32 bits. The number is taken modulo
`2 ^ 32`, which changes nothing within the limit on the length of a key.
-/

namespace KeyDerivation

/-- **A stretch of a buffer of `n` bytes** that takes the front of the block numbered
`index`, which is `w` bytes long. -/
structure Segment (w n : Nat) where
  /-- The number of the block. -/
  index : UInt32
  /-- Where the stretch begins. -/
  offset : Nat
  length : Nat
  fits : offset + length ≤ n
  length_le : length ≤ w

namespace Segment

variable {w n : Nat}

/-- How many blocks of `w` bytes it takes to cover `n` bytes. -/
def count (w n : Nat) : Nat := (n + w - 1) / w

theorem mul_lt_of_lt_count {i : Nat} (h : i < count w n) : i * w < n := by
  have hle : (i + 1) * w ≤ n + w - 1 :=
    Nat.le_trans (Nat.mul_le_mul_right w h) (Nat.div_mul_le_self _ _)
  rw [Nat.succ_mul] at hle
  have hw : 0 < w := by
    rcases Nat.eq_zero_or_pos w with hw | hw
    · simp [count, hw] at h
    · exact hw
  omega

/-- **All segments of a buffer**, from the front: full ones, and what remains. -/
def plan (w n : Nat) : List (Segment w n) :=
  List.ofFn fun i : Fin (count w n) =>
    { index := UInt32.ofNat (i.val + 1)
      offset := i.val * w
      length := min w (n - i.val * w)
      fits := by
        have := mul_lt_of_lt_count i.isLt
        omega
      length_le := Nat.min_le_left _ _ }

/-- Writes the front of a block, which stands at the front of an array, into its
stretch of the buffer. -/
def write {m : Nat} (segment : Segment w n) (array : Buffer m) (wide : w ≤ m)
    (buffer : Buffer n) : Buffer n :=
  buffer.overwrite segment.offset (array.toList.take segment.length) (by
    have := segment.fits
    have := segment.length_le
    simp
    omega)

end Segment

end KeyDerivation
