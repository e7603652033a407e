import KeyDerivation.Hash.PartialBlock

/-!
# A byte string as a sequence of blocks

An iterated hash is defined on whole messages, cut into blocks from the front. The
computation sees the message in pieces, and what it cuts depends on where one piece
ends and the next begins. This file shows that the cuts are always the same:

* `KeyDerivation.joined` reads a sequence of blocks as the bytes they hold, and
  `KeyDerivation.wholeBlocks` cuts a byte string into blocks by position alone. The
  second undoes the first (`KeyDerivation.wholeBlocks_joined`), so a sequence of blocks
  is known once its bytes are;
* `KeyDerivation.PartialBlock.joined_absorb_append_pending` is the law of absorbing:
  the bytes of the blocks handed out, and those that stay behind, are the bytes that
  were pending and the new ones. It holds whichever way a byte takes: into the array
  until the block there is complete, past the array in a block of its own, or into the
  array as part of what remains.
-/

namespace KeyDerivation

variable {n : Nat}

/-! ### Blocks and their bytes -/

/-- The bytes of a sequence of blocks, one block after the other. -/
def joined (blocks : List (Buffer n)) : Bytes := blocks.flatMap Vector.toList

@[simp] theorem joined_nil : joined ([] : List (Buffer n)) = [] := rfl

@[simp] theorem joined_cons (block : Buffer n) (blocks : List (Buffer n)) :
    joined (block :: blocks) = block.toList ++ joined blocks := rfl

@[simp] theorem joined_append (blocks blocks' : List (Buffer n)) :
    joined (blocks ++ blocks') = joined blocks ++ joined blocks' := List.flatMap_append

@[simp] theorem length_joined (blocks : List (Buffer n)) :
    (joined blocks).length = blocks.length * n := by
  induction blocks with
  | nil => simp
  | cons block blocks ih => simp [ih, Nat.succ_mul, Nat.add_comm]

theorem mul_add_lt_of_lt_div {length i j : Nat} (hi : i < length / n) (hj : j < n) :
    i * n + j < length := by
  have hrow : (i + 1) * n ≤ length :=
    Nat.le_trans (Nat.mul_le_mul_right n hi) (Nat.div_mul_le_self _ _)
  rw [Nat.succ_mul] at hrow
  omega

/-- **The whole blocks of a byte string**, in order: block number `i` holds the `n`
bytes from position `i * n` on. A remainder too short for a block is left out. -/
def wholeBlocks (n : Nat) (bytes : Bytes) : List (Buffer n) :=
  List.ofFn fun i : Fin (bytes.length / n) =>
    Vector.ofFn fun j : Fin n =>
      have inside := mul_add_lt_of_lt_div i.isLt j.isLt
      bytes[i.val * n + j.val]

/-- The byte at a place of a block stands at the matching place of all bytes. -/
theorem getElem_joined (blocks : List (Buffer n)) {i j : Nat} (hi : i < blocks.length)
    (hj : j < n) (hplace : i * n + j < (joined blocks).length) :
    (joined blocks)[i * n + j] = blocks[i][j] := by
  -- Leaving out the first block moves every place down by one block.
  induction blocks generalizing i with
  | nil => simp at hi
  | cons block blocks ih =>
    cases i with
    | zero => simp [hj]
    | succ i =>
      have hlater : ¬(i + 1) * n + j < n := by
        rw [Nat.succ_mul]
        omega
      have hshift : (i + 1) * n + j - n = i * n + j := by
        rw [Nat.succ_mul]
        omega
      have hi' : i < blocks.length := by simpa using hi
      have hplace' : i * n + j < (joined blocks).length := by
        rw [joined_cons, List.length_append, Vector.length_toList, Nat.succ_mul] at hplace
        omega
      simp [List.getElem_append, hlater, hshift, ih hi' hplace']

/-- A block stands in the bytes of all blocks where its number says. -/
theorem take_drop_joined (blocks : List (Buffer n)) {i : Nat} (hi : i < blocks.length) :
    ((joined blocks).drop (i * n)).take n = blocks[i].toList := by
  induction blocks generalizing i with
  | nil => simp at hi
  | cons block blocks ih =>
    cases i with
    | zero => simp
    | succ i =>
      have hshift :
          (joined (block :: blocks)).drop ((i + 1) * n) = (joined blocks).drop (i * n) := by
        rw [joined_cons, Nat.succ_mul, Nat.add_comm, ← List.drop_drop,
          List.drop_left' Vector.length_toList]
      rw [hshift, ih (by simpa using hi), List.getElem_cons_succ]

/-- **Cutting undoes joining**, also when bytes too few for a block stand behind the
blocks. -/
theorem wholeBlocks_joined_append (blocks : List (Buffer n)) {rest : Bytes}
    (hrest : rest.length < n) : wholeBlocks n (joined blocks ++ rest) = blocks := by
  have hcount : (joined blocks ++ rest).length / n = blocks.length := by
    rw [List.length_append, length_joined, Nat.mul_comm,
      Nat.mul_add_div (Nat.zero_lt_of_lt hrest), Nat.div_eq_of_lt hrest, Nat.add_zero]
  refine List.ext_getElem (by rw [wholeBlocks, List.length_ofFn, hcount]) fun i _ hi => ?_
  refine Vector.ext fun j hj => ?_
  have hplace : i * n + j < (joined blocks).length := by
    have hrow : (i + 1) * n ≤ blocks.length * n := Nat.mul_le_mul_right n hi
    rw [Nat.succ_mul] at hrow
    rw [length_joined]
    omega
  simp only [wholeBlocks, List.getElem_ofFn, Vector.getElem_ofFn]
  rw [List.getElem_append_left hplace]
  exact getElem_joined blocks hi hj hplace

/-- A sequence of blocks is known once its bytes are. -/
theorem wholeBlocks_joined (pos : 0 < n) (blocks : List (Buffer n)) :
    wholeBlocks n (joined blocks) = blocks := by
  have h := wholeBlocks_joined_append blocks (show ([] : Bytes).length < n from pos)
  rwa [List.append_nil] at h

namespace PartialBlock

/-! ### Absorbing -/

theorem length_pending (block : PartialBlock n) : block.pending.length = block.used := by
  have := block.used_lt
  simp [pending]
  omega

theorem joined_leadingBlocks (k : Nat) (data : Bytes) (long : k * n ≤ data.length) :
    joined (leadingBlocks n k data long) = data.take (k * n) := by
  induction k generalizing data with
  | zero => simp [leadingBlocks]
  | succ k ih =>
    rw [leadingBlocks, joined_cons, Buffer.toList_ofBytes, ih, Nat.succ_mul, Nat.add_comm,
      List.take_add]

/-- With no byte pending, the blocks handed out and the bytes that remain make up the
piece. -/
theorem joined_absorbAligned_append_pending (store : Buffer n) (pos : 0 < n) (data : Bytes) :
    joined (absorbAligned store pos data).1 ++ (absorbAligned store pos data).2.pending = data := by
  simp only [absorbAligned, pending, joined_leadingBlocks, Buffer.take_overwrite_zero]
  exact List.take_append_drop _ _

/-- **Absorbing loses, adds and reorders no byte**: the blocks handed out and the bytes
that remain make up the bytes that were pending, followed by the piece. -/
theorem joined_absorb_append_pending (block : PartialBlock n) (data : Bytes) :
    joined (block.absorb data).1 ++ (block.absorb data).2.pending = block.pending ++ data := by
  have hlt := block.used_lt
  by_cases hsome : 0 < block.used
  · simp only [absorb, if_pos hsome]
    split
    next hmore =>
      -- The piece does not complete the block: all of it is taken into the array.
      have hall : data.take (n - block.used) = data := by
        rw [List.length_take] at hmore
        exact List.take_of_length_le (by omega)
      simp only [joined_nil, List.nil_append, pending, Buffer.take_overwrite, hall]
    next hfull =>
      -- The array is full after the first bytes of the piece, and handed out as it is.
      have hend : block.used + (data.take (n - block.used)).length = n := by
        rw [List.length_take] at hfull ⊢
        omega
      rw [joined_cons, List.append_assoc, joined_absorbAligned_append_pending,
        Buffer.toList_overwrite_end _ _ _ _ hend, List.append_assoc, List.length_take]
      rcases Nat.le_total (n - block.used) data.length with hle | hle
      · rw [Nat.min_eq_left hle, List.take_append_drop, pending]
      · rw [Nat.min_eq_right hle, List.drop_length, List.append_nil, List.take_of_length_le hle,
          pending]
  · have hempty : block.pending = [] := by
      rw [← List.length_eq_zero_iff, length_pending]
      omega
    simp only [absorb, if_neg hsome]
    rw [joined_absorbAligned_append_pending, hempty, List.nil_append]

end PartialBlock

end KeyDerivation
