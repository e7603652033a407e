import KeyDerivation.Hash.Word
import KeyDerivation.Proofs.BigEndian

/-!
# The laws of machine words

A compression function computes with words of one size or the other, and knows of them only
the operations of `KeyDerivation.Word`. `KeyDerivation.LawfulWord` says what these operations
mean: a word is a string of bits, as many as it has bytes times eight, and every operation is
the one on strings of bits. Sums wrap there, and a rotation loses no bit, although it is
computed from two shifts.

Words spelled one after the other can be told apart (`KeyDerivation.Word.spell_inj`).
-/

namespace KeyDerivation

namespace Word

variable {W : Type} [Word W]

/-- **The bits of a word.** -/
def bits (x : W) : BitVec (8 * width W) := BitVec.ofNat _ (toNat x)

end Word

open Word

/-- **The laws of machine words**: words are strings of bits, and so are their operations. -/
class LawfulWord (W : Type) [Word W] : Prop where
  toNat_lt (x : W) : toNat x < 2 ^ (8 * width W)
  eq_of_toNat_eq {x y : W} : toNat x = toNat y → x = y
  bits_ofNat (k : Nat) : bits (Word.ofNat k : W) = BitVec.ofNat _ k
  bits_add (x y : W) : bits (x + y) = bits x + bits y
  bits_and (x y : W) : bits (x &&& y) = bits x &&& bits y
  bits_or (x y : W) : bits (x ||| y) = bits x ||| bits y
  bits_xor (x y : W) : bits (x ^^^ y) = bits x ^^^ bits y
  bits_not (x : W) : bits (~~~x) = ~~~bits x
  bits_rotateRight (x : W) {k : Nat} :
    0 < k → k < 8 * width W → bits (rotateRight x k) = (bits x).rotateRight k
  bits_shiftRight (x : W) {k : Nat} : k < 8 * width W → bits (shiftRight x k) = bits x >>> k

/-! ### The two word sizes -/

section ShiftAmount

variable {w k : Nat} (x : BitVec w) (hk : k < w)

include hk

/-- The amount of a shift is taken modulo the size of a word, which changes nothing below it. -/
theorem toNat_shiftAmount : (BitVec.ofNat w k % BitVec.ofNat w w).toNat = k := by
  have hw : w < 2 ^ w := Nat.lt_two_pow_self
  rw [BitVec.toNat_umod, BitVec.toNat_ofNat, BitVec.toNat_ofNat,
    Nat.mod_eq_of_lt (Nat.lt_trans hk hw), Nat.mod_eq_of_lt hw, Nat.mod_eq_of_lt hk]

theorem shiftRight_amount : x >>> (BitVec.ofNat w k % BitVec.ofNat w w) = x >>> k := by
  rw [BitVec.ushiftRight_eq', toNat_shiftAmount hk]

theorem shiftLeft_amount : x <<< (BitVec.ofNat w k % BitVec.ofNat w w) = x <<< k := by
  rw [BitVec.shiftLeft_eq', toNat_shiftAmount hk]

end ShiftAmount

theorem bits_uint32 (x : UInt32) : bits x = x.toBitVec := by
  change BitVec.ofNat 32 x.toBitVec.toNat = x.toBitVec
  rw [BitVec.ofNat_toNat, BitVec.setWidth_eq]

theorem bits_uint64 (x : UInt64) : bits x = x.toBitVec := by
  change BitVec.ofNat 64 x.toBitVec.toNat = x.toBitVec
  rw [BitVec.ofNat_toNat, BitVec.setWidth_eq]

instance : LawfulWord UInt32 where
  toNat_lt x := x.toNat_lt
  eq_of_toNat_eq h := UInt32.toNat_inj.mp h
  bits_ofNat _ := bits_uint32 _
  bits_add x y := by simpa only [bits_uint32] using UInt32.toBitVec_add
  bits_and x y := by simpa only [bits_uint32] using UInt32.toBitVec_and x y
  bits_or x y := by simpa only [bits_uint32] using UInt32.toBitVec_or x y
  bits_xor x y := by simpa only [bits_uint32] using UInt32.toBitVec_xor x y
  bits_not x := by simpa only [bits_uint32] using UInt32.toBitVec_not
  bits_rotateRight x {k} hpos hlt := by
    have hk : k < 32 := hlt
    rw [bits_uint32, bits_uint32, BitVec.rotateRight_def, Nat.mod_eq_of_lt hlt]
    exact (UInt32.toBitVec_or _ _).trans
      (congrArg₂ _ (shiftRight_amount _ hk) (shiftLeft_amount _ (by omega)))
  bits_shiftRight x {k} hlt := by
    rw [bits_uint32, bits_uint32]
    exact shiftRight_amount _ hlt

instance : LawfulWord UInt64 where
  toNat_lt x := x.toNat_lt
  eq_of_toNat_eq h := UInt64.toNat_inj.mp h
  bits_ofNat _ := bits_uint64 _
  bits_add x y := by simpa only [bits_uint64] using UInt64.toBitVec_add
  bits_and x y := by simpa only [bits_uint64] using UInt64.toBitVec_and x y
  bits_or x y := by simpa only [bits_uint64] using UInt64.toBitVec_or x y
  bits_xor x y := by simpa only [bits_uint64] using UInt64.toBitVec_xor x y
  bits_not x := by simpa only [bits_uint64] using UInt64.toBitVec_not
  bits_rotateRight x {k} hpos hlt := by
    have hk : k < 64 := hlt
    rw [bits_uint64, bits_uint64, BitVec.rotateRight_def, Nat.mod_eq_of_lt hlt]
    exact (UInt64.toBitVec_or _ _).trans
      (congrArg₂ _ (shiftRight_amount _ hk) (shiftLeft_amount _ (by omega)))
  bits_shiftRight x {k} hlt := by
    rw [bits_uint64, bits_uint64]
    exact shiftRight_amount _ hlt

namespace Word

variable {W : Type} [Word W] [LawfulWord W]

/-- A word is known once its bytes are. -/
theorem eq_of_toBytes_eq {x y : W} (h : toBytes x = toBytes y) : x = y := by
  have hfit (z : W) : toNat z < 256 ^ width W := by
    have hlt := LawfulWord.toNat_lt z
    rwa [Nat.pow_mul] at hlt
  exact LawfulWord.eq_of_toNat_eq ((bigEndian_inj (hfit x) (hfit y)).mp h)

/-- **Words spelled one after the other** are known once the bytes are, and how many words
there were. -/
theorem spell_inj {words words' : List W} (hlength : words.length = words'.length)
    (h : spell words = spell words') : words = words' := by
  induction words generalizing words' with
  | nil => exact (List.length_eq_zero_iff.mp hlength.symm).symm
  | cons x words ih =>
    cases words' with
    | nil => exact absurd hlength nofun
    | cons y words' =>
      have hwidth : (toBytes x).length = (toBytes y).length := by simp [toBytes]
      obtain ⟨hfirst, hrest⟩ := List.append_inj h hwidth
      rw [eq_of_toBytes_eq hfirst, ih (Nat.succ.inj hlength) hrest]

end Word

end KeyDerivation
