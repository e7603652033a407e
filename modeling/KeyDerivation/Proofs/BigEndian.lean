import KeyDerivation.Bytes
import Mathlib.Algebra.Group.Nat.Defs

/-!
# Reading back a big-endian number

A number is spelled in a fixed number of bytes, each of which is a digit of it to base 256
(`KeyDerivation.getElem_bigEndian`), and what does not fit is lost. So reading the bytes gives the
number back up to a multiple of a power of 256 (`KeyDerivation.bigEndianValue_bigEndian`), and
numbers that fit are told apart by their bytes (`KeyDerivation.bigEndian_inj`).
-/

namespace KeyDerivation

/-- **The bytes are the digits** to base 256, the last one of the lowest value. -/
theorem getElem_bigEndian (k x : Nat) {i : Nat} (hi : i < (bigEndian k x).length) :
    (bigEndian k x)[i] = UInt8.ofNat (x / 256 ^ (k - 1 - i)) := by
  induction k generalizing x with
  | zero => exact absurd hi (Nat.not_lt_zero i)
  | succ k ih =>
    rw [length_bigEndian] at hi
    simp only [bigEndian, List.getElem_append, length_bigEndian]
    split
    next hfront =>
      have hplace : k + 1 - 1 - i = k - 1 - i + 1 := by omega
      rw [ih, Nat.div_div_eq_div_mul, hplace, Nat.pow_succ']
    next hlast =>
      have hplace : k + 1 - 1 - i = 0 := by omega
      rw [List.getElem_singleton, hplace, Nat.pow_zero, Nat.div_one]

theorem bigEndianValue_append_singleton (bytes : Bytes) (b : UInt8) :
    bigEndianValue (bytes ++ [b]) = 256 * bigEndianValue bytes + b.toNat := by
  rw [bigEndianValue, List.foldl_append]
  rfl

/-- **Reading undoes spelling**, up to what does not fit. -/
theorem bigEndianValue_bigEndian (k x : Nat) : bigEndianValue (bigEndian k x) = x % 256 ^ k := by
  induction k generalizing x with
  | zero => exact (Nat.mod_one x).symm
  | succ k ih =>
    have hlast : (UInt8.ofNat x).toNat = x % 256 := UInt8.toNat_ofNat'
    rw [bigEndian, bigEndianValue_append_singleton, ih, hlast, Nat.pow_succ', Nat.mod_mul,
      Nat.add_comm]

/-- **Numbers that fit are told apart by their bytes.** -/
theorem bigEndian_inj {k x y : Nat} (hx : x < 256 ^ k) (hy : y < 256 ^ k) :
    bigEndian k x = bigEndian k y ↔ x = y := by
  refine ⟨fun h => ?_, fun h => h ▸ rfl⟩
  have hvalue := congrArg bigEndianValue h
  rwa [bigEndianValue_bigEndian, bigEndianValue_bigEndian, Nat.mod_eq_of_lt hx,
    Nat.mod_eq_of_lt hy] at hvalue

end KeyDerivation
