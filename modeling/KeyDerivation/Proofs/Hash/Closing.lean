import KeyDerivation.Proofs.Hash.Padding

/-!
# Closing a stream writes the shortest padding, or nothing

A stream is closed in the array that holds its pending bytes, and what earlier blocks have
left in that array is still there when it begins. `KeyDerivation.PartialBlock.closeInPlace` is
this computation write by write. Any of its writes could be refused, and one of the two blocks
may be handed out before the other is begun.

None of the writes is refused if the length field fits in a block
(`KeyDerivation.PartialBlock.closeInPlace_of_le`), so the blocks are those of
`KeyDerivation.PartialBlock.close`, whose bytes are known. If the field is longer than a block,
the computation is refused before it has handed out anything. It would be even if the
difference that says where the field begins were not refused but wrapped around: no array
reaches as far as a number beyond its length
(`KeyDerivation.PartialBlock.closeWithTail_of_lt`).
-/

namespace KeyDerivation

variable {n : Nat}

/-! ### Computations that hand out blocks -/

namespace HandingOut

variable {α β : Type} {computation : HandingOut n α} {handed later : List (Buffer n)}

/-- What follows a computation: the next one, or nothing if it was refused. -/
theorem bind_apply (next : α → HandingOut n β) :
    (computation >>= next) handed =
      match computation handed with
      | (some a, later) => next a later
      | (none, later) => (none, later) := by
  simp only [bind, OptionT.bind, OptionT.mk, StateT.bind]
  rcases computation handed with ⟨_ | a, later⟩
  · rfl
  · rfl

/-- A computation that was not refused is followed by the next one. -/
theorem bind_of_some {a : α} (h : computation handed = (some a, later))
    (next : α → HandingOut n β) : (computation >>= next) handed = next a later := by
  rw [bind_apply, h]

/-- A computation that was refused ends there. -/
theorem bind_of_none (h : computation handed = (none, later)) (next : α → HandingOut n β) :
    (computation >>= next) handed = (none, later) := by
  rw [bind_apply, h]

theorem liftOption_some_bind (a : α) (next : α → HandingOut n β) :
    liftOption (some a) >>= next = next a := rfl

end HandingOut

open HandingOut

namespace PartialBlock

/-! ### The last block -/

theorem handOutLast_of_le (store : Buffer n) {used tail : Nat} {field : Bytes} (hused : used ≤ tail)
    (hend : tail + field.length = n) (handed : List (Buffer n)) :
    handOutLast store used tail field handed =
      (some (), handed ++ [(store.clear used tail).overwrite tail field (Nat.le_of_eq hend)]) := by
  rw [handOutLast, Buffer.clear?_of_le _ hused (by omega), liftOption_some_bind,
    Buffer.overwriteEnd?_of_eq _ hend, liftOption_some_bind]
  rfl

/-- A field cannot begin behind the end of the array. -/
theorem handOutLast_of_lt (store : Buffer n) (used : Nat) {tail : Nat} (field : Bytes)
    (hbeyond : n < tail) (handed : List (Buffer n)) :
    handOutLast store used tail field handed = (none, handed) := by
  rw [handOutLast, Buffer.clear?_of_lt _ _ hbeyond]
  exact bind_of_none rfl _

/-! ### A field that fits -/

/-- **Closing hands out one block or two**: one if the field fits behind the end marker. -/
theorem length_close (block : PartialBlock n) (field : Bytes) (fits : field.length ≤ n) :
    (block.close field fits).1.length =
      if block.used + 1 + field.length ≤ n then 1 else 2 := by
  simp only [close]
  by_cases hone : block.used + 1 ≤ n - field.length
  · rw [if_pos hone, if_pos (by omega)]
    rfl
  · rw [if_neg hone, if_neg (by omega)]
    rfl

/-- **No write is refused** if the field fits in a block. -/
theorem closeInPlace_of_le (block : PartialBlock n) (field : Bytes) (fits : field.length ≤ n)
    (handed : List (Buffer n)) :
    block.closeInPlace field handed =
      (some (block.close field fits).2, handed ++ (block.close field fits).1) := by
  have hend : n - field.length + field.length = n := Nat.sub_add_cancel fits
  have hguard : (guard (field.length ≤ n) : HandingOut n Unit) = pure () := if_pos fits
  rw [closeInPlace, hguard, pure_bind, closeWithTail,
    Buffer.replace?_of_lt _ block.used_lt, liftOption_some_bind]
  simp only [close]
  by_cases hone : block.used + 1 ≤ n - field.length
  · rw [if_pos hone, if_neg (Nat.not_lt.mpr hone)]
    exact bind_of_some (handOutLast_of_le _ hone hend handed) _
  · -- The first block is complete before the second one is begun in the same array.
    have hfirst (spilled : Buffer n) :
        handOut spilled handed = (some (), handed ++ [spilled]) := rfl
    rw [if_neg hone, if_pos (Nat.not_le.mp hone),
      Buffer.clear?_of_le _ (Nat.succ_le_of_lt block.used_lt) (Nat.le_refl n),
      liftOption_some_bind, bind_of_some (hfirst _),
      bind_of_some (handOutLast_of_le _ (Nat.zero_le _) hend _), List.append_assoc]
    rfl

/-! ### A field that does not fit -/

/-- **A field that is to begin behind the end of the array** is refused, and no block has been
complete until then. -/
theorem closeWithTail_of_lt (block : PartialBlock n) (field : Bytes) {tail : Nat}
    (hbeyond : n < tail) (handed : List (Buffer n)) :
    block.closeWithTail field tail handed = (none, handed) := by
  have hroom : ¬tail < block.used + 1 := by
    have := block.used_lt
    omega
  rw [closeWithTail, Buffer.replace?_of_lt _ block.used_lt, liftOption_some_bind, if_neg hroom]
  exact bind_of_none (handOutLast_of_lt _ _ _ hbeyond handed) _

theorem closeInPlace_of_lt (block : PartialBlock n) (field : Bytes) (hlong : n < field.length)
    (handed : List (Buffer n)) : block.closeInPlace field handed = (none, handed) := by
  have hguard : (guard (field.length ≤ n) : HandingOut n Unit) = failure :=
    if_neg (Nat.not_le.mpr hlong)
  rw [closeInPlace, hguard]
  rfl

/-- **Closing writes the shortest padding, or hands out nothing.**

With a field that fits in a block no write is refused, whatever the array holds behind the
pending bytes. The blocks handed out are the pending bytes, the byte `0x80`, the least number
of zeros that completes a block, and the field. There is one of them if that is all there is
room for, and otherwise there are two. The array is left empty, and all zero.

A field longer than a block is refused before a block has been handed out, also if the place
it would begin at is taken for some number beyond the array. -/
theorem closing_writes_shortest_padding (block : PartialBlock n) (field : Bytes)
    (handed : List (Buffer n)) :
    (field.length ≤ n →
      ∃ blocks rest,
        block.closeInPlace field handed = (some rest, handed ++ blocks) ∧
        block.close? field = some (blocks, rest) ∧
        (∃ zeros, IsLeast {z | n ∣ block.pending.length + 1 + z + field.length} zeros ∧
          joined blocks = block.pending ++ 0x80 :: (List.replicate zeros 0 ++ field)) ∧
        blocks.length = (if block.pending.length + 1 + field.length ≤ n then 1 else 2) ∧
        rest.used = 0 ∧ rest.store = Buffer.zeros n) ∧
    (n < field.length →
      block.closeInPlace field handed = (none, handed) ∧ block.close? field = none ∧
      ∀ tail, n < tail → block.closeWithTail field tail handed = (none, handed)) := by
  constructor
  · intro fits
    have hleast := isLeast_zeroCount (Nat.zero_lt_of_lt block.used_lt) field.length
      block.pending.length
    have hblocks := block.length_close field fits
    rw [← length_pending] at hblocks
    exact ⟨(block.close field fits).1, (block.close field fits).2,
      block.closeInPlace_of_le field fits handed, dif_pos fits,
      ⟨_, hleast, block.joined_close field fits⟩, hblocks, rfl, rfl⟩
  · intro hlong
    exact ⟨block.closeInPlace_of_lt field hlong handed, dif_neg (Nat.not_le.mpr hlong),
      fun tail hbeyond => block.closeWithTail_of_lt field hbeyond handed⟩

/-- Blocks of four bytes, three of them pending: a field of one byte does not fit behind the
end marker, and one of five bytes does not fit in a block. -/
theorem closing_writes_shortest_padding_four :
    let block : PartialBlock 4 := ⟨#v[1, 2, 3, 9], 3, by decide⟩
    let handed : List (Buffer 4) := [#v[7, 7, 7, 7]]
    (([0x18] : Bytes).length ≤ 4 ∧
      ∃ blocks rest,
        block.closeInPlace [0x18] handed = (some rest, handed ++ blocks) ∧
        block.close? [0x18] = some (blocks, rest) ∧
        (∃ zeros, IsLeast {z | 4 ∣ 3 + 1 + z + 1} zeros ∧
          joined blocks = [1, 2, 3] ++ 0x80 :: (List.replicate zeros 0 ++ [0x18])) ∧
        blocks.length = 2 ∧ rest.used = 0 ∧ rest.store = Buffer.zeros 4) ∧
    4 < ([1, 2, 3, 4, 5] : Bytes).length ∧
      block.closeInPlace [1, 2, 3, 4, 5] handed = (none, handed) ∧
      block.close? [1, 2, 3, 4, 5] = none ∧
      ∀ tail, 4 < tail → block.closeWithTail [1, 2, 3, 4, 5] tail handed = (none, handed) := by
  intro block handed
  have hfits : ([0x18] : Bytes).length ≤ 4 := by decide
  have hlong : 4 < ([1, 2, 3, 4, 5] : Bytes).length := by decide
  exact ⟨⟨hfits, (closing_writes_shortest_padding block [0x18] handed).1 hfits⟩, hlong,
    (closing_writes_shortest_padding block [1, 2, 3, 4, 5] handed).2 hlong⟩

end PartialBlock

end KeyDerivation
