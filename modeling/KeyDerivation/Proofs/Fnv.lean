import KeyDerivation.Fnv
import KeyDerivation.Proofs.BigEndian
import Mathlib.Logic.Function.Basic

/-!
# The checksum tells strings apart that differ in one byte

Folding a byte into the word can be undone: the multiplier is odd, so that multiplication by it has
an inverse modulo `2 ^ 64`, and the exclusive or is its own inverse. So a step keeps words apart
that are different (`KeyDerivation.Fnv.step_bijective`), and it makes two words out of one if it is
given two bytes (`KeyDerivation.Fnv.step_injective`). A difference that one byte has made is
therefore still there after all bytes behind it (`KeyDerivation.Fnv.absorb_byte_ne`).

For the pseudorandom function made of the checksum this means that it sees every change of one byte,
in the key as well as in the message. The separator between them is one more byte behind a change in
the key.

The checksum is usually described with natural numbers, and `KeyDerivation.Fnv.hash` is this
description.
-/

namespace KeyDerivation

namespace Fnv

/-! ### The checksum by numbers -/

/-- One byte folded into a number below `2 ^ 64`. -/
def mixByte (state : Nat) (b : UInt8) : Nat :=
  (state ^^^ b.toNat) * 1099511628211 % 2 ^ 64

/-- **The FNV-1a checksum** of 64 bits, as a number. -/
def hash (bytes : Bytes) : Nat := bytes.foldl mixByte 14695981039346656037

theorem toNat_step (state : UInt64) (b : UInt8) : (step state b).toNat = mixByte state.toNat b := by
  rw [step, UInt64.toNat_mul, UInt64.toNat_xor, UInt8.toNat_toUInt64]
  rfl

theorem toNat_absorb (state : UInt64) (bytes : Bytes) :
    (absorb state bytes).toNat = bytes.foldl mixByte state.toNat := by
  induction bytes generalizing state with
  | nil => rfl
  | cons b bytes ih =>
    rw [absorb, List.foldl_cons, List.foldl_cons, ← toNat_step]
    exact ih (step state b)

theorem toNat_checksum (bytes : Bytes) : (checksum bytes).toNat = hash bytes :=
  toNat_absorb offset bytes

example : hash [0x61] = 0xaf63dc4c8601ec8c := by decide

/-! ### One step -/

/-- The inverse of the multiplier modulo `2 ^ 64`. -/
def inverse : UInt64 := 0xce965057aff6957b

theorem multiplier_mul_inverse : multiplier * inverse = 1 := by decide

theorem inverse_mul_multiplier : inverse * multiplier = 1 := by decide

/-- **A step undone**: the word from before a byte was folded in. -/
def unstep (state : UInt64) (b : UInt8) : UInt64 := state * inverse ^^^ b.toUInt64

theorem unstep_step (state : UInt64) (b : UInt8) : unstep (step state b) b = state := by
  rw [unstep, step, UInt64.mul_assoc, multiplier_mul_inverse, UInt64.mul_one, UInt64.xor_assoc,
    UInt64.xor_self, UInt64.xor_zero]

theorem step_unstep (state : UInt64) (b : UInt8) : step (unstep state b) b = state := by
  rw [step, unstep, UInt64.xor_assoc, UInt64.xor_self, UInt64.xor_zero, UInt64.mul_assoc,
    inverse_mul_multiplier, UInt64.mul_one]

/-- **A step loses nothing of the word**, whatever the byte. -/
theorem step_bijective (b : UInt8) : Function.Bijective fun state => step state b :=
  Function.bijective_iff_has_inverse.mpr
    ⟨fun state => unstep state b, fun state => unstep_step state b, fun state => step_unstep state b⟩

/-- **A step loses nothing of the byte**, whatever the word. -/
theorem step_injective (state : UInt64) : Function.Injective (step state) := by
  intro b b' h
  -- The last thing a step does is to multiply, and this can be undone for both at once.
  have hmixed : state ^^^ b.toUInt64 = state ^^^ b'.toUInt64 := by
    have hundone := congrArg (· * inverse) h
    simpa only [step, UInt64.mul_assoc, multiplier_mul_inverse, UInt64.mul_one] using hundone
  exact UInt8.toUInt64_inj.mp ((UInt64.xor_right_inj state).mp hmixed)

/-! ### A whole string -/

theorem absorb_append (state : UInt64) (front rest : Bytes) :
    absorb state (front ++ rest) = absorb (absorb state front) rest := List.foldl_append

/-- **A string keeps words apart** that were different before it. -/
theorem absorb_bijective (bytes : Bytes) : Function.Bijective fun state => absorb state bytes := by
  induction bytes with
  | nil => exact Function.bijective_id
  | cons b bytes ih => exact ih.comp (step_bijective b)

/-- **A difference in one byte survives** all bytes behind it. -/
theorem absorb_byte_ne (state : UInt64) (front rest : Bytes) {b b' : UInt8} (hne : b ≠ b') :
    absorb state (front ++ b :: rest) ≠ absorb state (front ++ b' :: rest) := by
  intro h
  rw [absorb_append, absorb_append] at h
  have hstep : step (absorb state front) b = step (absorb state front) b' :=
    (absorb_bijective rest).injective h
  exact hne (step_injective _ hstep)

/-- **A byte replaced by another one** changes the checksum of every string that it stands in. -/
theorem checksum_set_ne (front rest : Bytes) {bytes : Bytes} {i : Nat} (hi : i < bytes.length)
    {b : UInt8} (hne : b ≠ bytes[i]) :
    checksum (front ++ (bytes.set i b ++ rest)) ≠ checksum (front ++ (bytes ++ rest)) := by
  have hbytes : bytes = bytes.take i ++ bytes[i] :: bytes.drop (i + 1) := by
    rw [List.getElem_cons_drop, List.take_append_drop]
  have hset : bytes.set i b = bytes.take i ++ b :: bytes.drop (i + 1) := by
    rw [List.set_eq_take_append_cons_drop, if_pos hi]
  have hsurvives := absorb_byte_ne offset (front ++ bytes.take i) (bytes.drop (i + 1) ++ rest) hne
  simp only [List.append_assoc, ← List.cons_append] at hsurvives
  rw [← List.append_assoc (bytes.take i), ← List.append_assoc (bytes.take i), ← hset,
    ← hbytes] at hsurvives
  exact hsurvives

end Fnv

/-! ### The pseudorandom function -/

/-- **The output** is the checksum of key, separator and message, in eight bytes. -/
theorem toList_value_checksumPrf (key : Bytes) (pieces : List Bytes) :
    (checksumPrf.value key pieces).toList =
      bigEndian 8 (Fnv.checksum (key ++ ChecksumContext.separator :: pieces.flatten)).toNat := by
  rw [Prf.value, context_checksumPrf]
  rfl

/-- Eight bytes tell all words apart, so two outputs are the same exactly if the checksums are. -/
theorem value_checksumPrf_inj {key key' : Bytes} {pieces pieces' : List Bytes} :
    checksumPrf.value key pieces = checksumPrf.value key' pieces' ↔
      Fnv.checksum (key ++ ChecksumContext.separator :: pieces.flatten) =
        Fnv.checksum (key' ++ ChecksumContext.separator :: pieces'.flatten) := by
  rw [← Vector.toList_inj, toList_value_checksumPrf, toList_value_checksumPrf, ← UInt64.toNat_inj]
  exact bigEndian_inj (UInt64.toNat_lt _) (UInt64.toNat_lt _)

/-- **A changed byte of the key** changes the output. -/
theorem value_checksumPrf_set_key_ne {key : Bytes} {pieces pieces' : List Bytes} {i : Nat}
    (hi : i < key.length) {b : UInt8} (hne : b ≠ key[i]) (hsame : pieces'.flatten = pieces.flatten) :
    checksumPrf.value (key.set i b) pieces' ≠ checksumPrf.value key pieces := by
  rw [ne_eq, value_checksumPrf_inj, hsame]
  exact Fnv.checksum_set_ne [] (ChecksumContext.separator :: pieces.flatten) hi hne

/-- **A changed byte of the message** changes the output, however the message is cut. -/
theorem value_checksumPrf_set_message_ne {key : Bytes} {pieces pieces' : List Bytes} {i : Nat}
    (hi : i < pieces.flatten.length) {b : UInt8} (hne : b ≠ pieces.flatten[i])
    (hchanged : pieces'.flatten = pieces.flatten.set i b) :
    checksumPrf.value key pieces' ≠ checksumPrf.value key pieces := by
  have hchecksum := Fnv.checksum_set_ne (key ++ [ChecksumContext.separator]) [] hi hne
  rw [List.append_nil, List.append_nil, List.append_assoc, List.append_assoc,
    List.singleton_append, List.singleton_append] at hchecksum
  rwa [ne_eq, value_checksumPrf_inj, hchanged]

/-- **The checksum sees every change of one byte.**

A step takes the word and a byte, combines them by exclusive or and multiplies, all modulo
`2 ^ 64`. For a fixed word it tells all bytes apart, and for a fixed byte it is a bijection on the
words. So words that are different stay different over any string, and a byte of the key or of the
message that is replaced by another one changes the eight bytes of the output. Where the message is
cut does not matter. -/
theorem checksum_sees_every_byte :
    (∀ (state : UInt64) (b : UInt8),
      (Fnv.step state b).toNat = (state.toNat ^^^ b.toNat) * 1099511628211 % 2 ^ 64) ∧
    (∀ state, Function.Injective (Fnv.step state)) ∧
    (∀ b, Function.Bijective fun state => Fnv.step state b) ∧
    (∀ (bytes : Bytes) (state state' : UInt64), state ≠ state' →
      Fnv.absorb state bytes ≠ Fnv.absorb state' bytes) ∧
    (∀ (key : Bytes) (pieces pieces' : List Bytes) (i : Nat) (hi : i < key.length) (b : UInt8),
      b ≠ key[i] → pieces'.flatten = pieces.flatten →
        checksumPrf.value (key.set i b) pieces' ≠ checksumPrf.value key pieces) ∧
    ∀ (key : Bytes) (pieces pieces' : List Bytes) (i : Nat) (hi : i < pieces.flatten.length)
      (b : UInt8), b ≠ pieces.flatten[i] → pieces'.flatten = pieces.flatten.set i b →
        checksumPrf.value key pieces' ≠ checksumPrf.value key pieces := by
  refine ⟨Fnv.toNat_step, Fnv.step_injective, Fnv.step_bijective, ?_, ?_, ?_⟩
  · intro bytes state state' hne
    exact (Fnv.absorb_bijective bytes).injective.ne hne
  · intro key pieces pieces' i hi b hne hsame
    exact value_checksumPrf_set_key_ne hi hne hsame
  · intro key pieces pieces' i hi b hne hchanged
    exact value_checksumPrf_set_message_ne hi hne hchanged

/-- The last byte of a key, right in front of the separator, and the first byte of a message that
was cut behind it, each with its lowest bit turned over. -/
theorem checksum_sees_every_byte_lowest_bit :
    let key : Bytes := [0x6b, 0x65, 0x79]
    let pieces : List Bytes := [[0x61], [0x62, 0x63]]
    let pieces' : List Bytes := [[0x60, 0x62], [], [0x63]]
    ((0 : UInt64) ≠ 1 ∧ (∃ h : 2 < key.length, (0x78 : UInt8) ≠ key[2]) ∧
      (∃ h : 0 < pieces.flatten.length, (0x60 : UInt8) ≠ pieces.flatten[0]) ∧
      pieces'.flatten = pieces.flatten.set 0 0x60) ∧
    Fnv.absorb 0 key ≠ Fnv.absorb 1 key ∧
    checksumPrf.value (key.set 2 0x78) pieces ≠ checksumPrf.value key pieces ∧
    checksumPrf.value key pieces' ≠ checksumPrf.value key pieces := by
  intro key pieces pieces'
  obtain ⟨-, -, -, hwords, hkey, hmessage⟩ := checksum_sees_every_byte
  refine ⟨⟨by decide, ⟨by decide, by decide⟩, ⟨by decide, by decide⟩, rfl⟩, ?_, ?_, ?_⟩
  · exact hwords key 0 1 (by decide)
  · exact hkey key pieces pieces 2 (by decide) 0x78 (by decide) rfl
  · exact hmessage key pieces pieces' 0 (by decide) 0x60 (by decide) rfl

end KeyDerivation
