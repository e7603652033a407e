import KeyDerivation.Proofs.Hash.Blocks
import Mathlib.Algebra.Group.Nat.Defs
import Mathlib.Order.Bounds.Defs

/-!
# The strengthening padding

The padding of an iterated hash appends the byte `0x80`, zeros, and the message length
in bits, with just as many zeros as it takes to end on a block boundary.

* `KeyDerivation.zeroCount` computes that number, and `KeyDerivation.isLeast_zeroCount`
  says that it is the least one;
* `KeyDerivation.IsPadded` states the padding of a whole message, with no reference to
  blocks or to how the message arrived;
* `KeyDerivation.PartialBlock.joined_close` computes the bytes of the blocks that closing
  a stream hands out. Their number is one or two, depending on how many bytes are
  pending, but the bytes obey one formula. What an earlier block left behind in the
  array is not among them.
-/

namespace KeyDerivation

variable {n : Nat}

/-! ### How many zeros -/

/-- The number of zeros between the end marker and a length field of `fieldLength`
bytes, for a message of `length` bytes in blocks of `n`. -/
def zeroCount (n fieldLength length : Nat) : Nat :=
  (n - (length + 1 + fieldLength) % n) % n

theorem dvd_add_zeroCount (pos : 0 < n) (fieldLength length : Nat) :
    n ∣ length + 1 + zeroCount n fieldLength length + fieldLength := by
  have hsum := Nat.div_add_mod (length + 1 + fieldLength) n
  have hlt := Nat.mod_lt (length + 1 + fieldLength) pos
  unfold zeroCount
  -- No zeros at all if the field ends on a boundary already, else up to the next one.
  rcases Nat.eq_zero_or_pos ((length + 1 + fieldLength) % n) with hzero | hrest
  · rw [hzero, Nat.sub_zero, Nat.mod_self, Nat.add_zero]
    exact Nat.dvd_of_mod_eq_zero hzero
  · rw [Nat.mod_eq_of_lt (by omega)]
    refine ⟨(length + 1 + fieldLength) / n + 1, ?_⟩
    rw [Nat.mul_succ]
    omega

/-- Below the block length, only one number of zeros completes a block. -/
theorem zeroCount_eq_of_lt {fieldLength length z : Nat} (hz : z < n)
    (hdvd : n ∣ length + 1 + z + fieldLength) : zeroCount n fieldLength length = z := by
  have hlt := Nat.mod_lt (length + 1 + fieldLength) (Nat.zero_lt_of_lt hz)
  have hsum : ((length + 1 + fieldLength) % n + z) % n = 0 := by
    rw [Nat.mod_add_mod, show length + 1 + fieldLength + z = length + 1 + z + fieldLength by omega]
    exact Nat.mod_eq_zero_of_dvd hdvd
  unfold zeroCount
  generalize (length + 1 + fieldLength) % n = r at hlt hsum ⊢
  rcases Nat.lt_or_ge (r + z) n with hsmall | hlarge
  · -- The remainder and the zeros fit in a block together, so both are none at all.
    rw [Nat.mod_eq_of_lt hsmall] at hsum
    obtain ⟨rfl, rfl⟩ : r = 0 ∧ z = 0 := by omega
    rw [Nat.sub_zero, Nat.mod_self]
  · -- Otherwise they fill exactly one.
    rw [Nat.mod_eq_sub_mod hlarge, Nat.mod_eq_of_lt (by omega)] at hsum
    rw [show n - r = z by omega, Nat.mod_eq_of_lt hz]

/-- **The number of zeros is the least that completes a block.** -/
theorem isLeast_zeroCount (pos : 0 < n) (fieldLength length : Nat) :
    IsLeast {z | n ∣ length + 1 + z + fieldLength} (zeroCount n fieldLength length) := by
  refine ⟨dvd_add_zeroCount pos fieldLength length, fun z hz => ?_⟩
  -- A number that completes a block still does so with all whole blocks taken off.
  have hmod : n ∣ length + 1 + z % n + fieldLength := by
    have hsplit := Nat.div_add_mod z n
    have heq : length + 1 + z + fieldLength = n * (z / n) + (length + 1 + z % n + fieldLength) := by
      omega
    exact (Nat.dvd_add_right (Nat.dvd_mul_right n (z / n))).mp (heq ▸ hz)
  rw [zeroCount_eq_of_lt (Nat.mod_lt z pos) hmod]
  exact Nat.mod_le z n

-- With a field of 8 bytes, 55 bytes are the longest message that is padded to one block.
example : zeroCount 64 8 55 = 0 ∧ zeroCount 64 8 56 = 63 := by decide

/-- Whole blocks in front of the message change nothing. -/
theorem zeroCount_mul_add (fieldLength k length : Nat) :
    zeroCount n fieldLength (k * n + length) = zeroCount n fieldLength length := by
  unfold zeroCount
  rw [show k * n + length + 1 + fieldLength = k * n + (length + 1 + fieldLength) by omega,
    Nat.mul_add_mod_self_right]

/-! ### The padded message -/

/-- A message with the padding behind it, for any length field. -/
def padWith (n : Nat) (field message : Bytes) : Bytes :=
  message ++ 0x80 :: (List.replicate (zeroCount n field.length message.length) 0 ++ field)

/-- The field that holds a message length in `w` bytes: the number of bits, as much of it
as fits. -/
def lengthFieldOf (w : Nat) (message : Bytes) : Bytes :=
  bigEndian w (8 * message.length % 2 ^ (8 * w))

/-- **A byte string is the padded form of a message**: the message, the byte `0x80`, the
least number of zeros that makes the whole a multiple of `n` bytes, and the number of
bits of the message in `w` bytes, most significant first. -/
def IsPadded (n w : Nat) (message padded : Bytes) : Prop :=
  ∃ zeros, IsLeast {z | n ∣ message.length + 1 + z + w} zeros ∧
    padded = message ++ 0x80 :: (List.replicate zeros 0 ++ lengthFieldOf w message)

theorem isPadded_padWith (pos : 0 < n) (w : Nat) (message : Bytes) :
    IsPadded n w message (padWith n (lengthFieldOf w message) message) := by
  have hleast := isLeast_zeroCount pos w message.length
  refine ⟨zeroCount n w message.length, hleast, ?_⟩
  rw [padWith, lengthFieldOf, length_bigEndian]

theorem padWith_append (field : Bytes) (blocks : List (Buffer n)) (rest : Bytes) :
    padWith n field (joined blocks ++ rest) = joined blocks ++ padWith n field rest := by
  rw [padWith, padWith, List.length_append, length_joined, zeroCount_mul_add, List.append_assoc]

/-! ### Closing a stream -/

namespace PartialBlock

/-- The front of the array after the end marker has been written and the bytes behind it
have been cleared. -/
theorem take_clear_set (block : PartialBlock n) {stop : Nat} (hstart : block.used + 1 ≤ stop)
    (hstop : stop ≤ n) :
    (Buffer.clear (block.store.set block.used 0x80 block.used_lt) (block.used + 1)
      stop).toList.take stop =
      block.pending ++ 0x80 :: List.replicate (stop - (block.used + 1)) 0 := by
  have hlt : block.used < block.store.toList.length := by simpa using block.used_lt
  have hfront : (block.store.toList.set block.used 0x80).take (block.used + 1) =
      block.pending ++ [0x80] := by
    rw [List.take_succ_eq_append_getElem (by simpa using hlt), List.getElem_set_self,
      List.take_set, List.set_eq_of_length_le (by rw [List.length_take]; omega), pending]
  rw [Buffer.take_clear _ hstart hstop, Vector.toList_set, hfront, List.append_assoc,
    List.singleton_append]

/-- **The bytes of the last blocks**: what was pending, and the padding. -/
theorem joined_close (block : PartialBlock n) (field : Bytes) (fits : field.length ≤ n) :
    joined (block.close field fits).1 = padWith n field block.pending := by
  have hlt := block.used_lt
  have hend : n - field.length + field.length = n := by omega
  rw [padWith, length_pending]
  simp only [close]
  split
  next hone =>
    have hzeros : zeroCount n field.length block.used = n - field.length - (block.used + 1) :=
      zeroCount_eq_of_lt (by omega) ⟨1, by omega⟩
    rw [joined_cons, joined_nil, List.append_nil, Buffer.toList_overwrite_end _ _ _ _ hend,
      take_clear_set block hone (by omega), hzeros, List.append_assoc, List.cons_append]
  next htwo =>
    -- The field does not fit behind the end marker: the zeros fill up this block and
    -- begin the next.
    have hzeros : zeroCount n field.length block.used =
        n - (block.used + 1) + (n - field.length) :=
      zeroCount_eq_of_lt (by omega) ⟨2, by omega⟩
    have hfirst := take_clear_set block (Nat.succ_le_of_lt hlt) (Nat.le_refl n)
    rw [List.take_of_length_le (by simp)] at hfirst
    rw [joined_cons, joined_cons, joined_nil, List.append_nil,
      Buffer.toList_overwrite_end _ _ _ _ hend, hfirst, Buffer.take_clear _ (by omega) (by omega),
      hzeros, ← List.replicate_append_replicate, List.take_zero, List.nil_append, Nat.sub_zero]
    simp only [List.append_assoc, List.cons_append]

end PartialBlock

end KeyDerivation
