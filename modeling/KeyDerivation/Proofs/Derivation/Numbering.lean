import KeyDerivation.Proofs.BigEndian
import KeyDerivation.Proofs.Derivation.Calls
import KeyDerivation.Proofs.Derivation.Rejection
import Mathlib.Data.List.Nodup

/-!
# The numbers of the blocks do not wrap

The blocks of a key are numbered in words of 32 bits, and the limit on the length of a key is
there for their sake: a key is accepted exactly if its blocks can be numbered from one without
coming back to zero (`KeyDerivation.Segment.numbered_iff`).

`KeyDerivation.Segment.plan` finds the number of a segment, and the place where it begins, from
its position. A derivation that goes through a buffer from the front does not do so: it
carries a counter along, which is advanced as soon as it has been read, and cuts one segment off
after the other. `KeyDerivation.Segment.countOff` is this walk, and it comes to the same segments
(`KeyDerivation.Segment.countOff_eq_plan`). Behind the last segment the counter may have wrapped,
but nobody reads it any more.

What the numbers are for is to keep the first messages of the blocks apart. The number stands at
the end of the message in four bytes, so neither two blocks of a key nor blocks under two salts
begin with the same message (`KeyDerivation.nodup_firstMessages`,
`KeyDerivation.disjoint_firstMessages`).
-/

namespace KeyDerivation

/-! ### Segments and their numbers -/

namespace Segment

variable {w n : Nat}

theorem getElem_plan {i : Nat} (hi : i < (plan w n).length) :
    (plan w n)[i].index = UInt32.ofNat (i + 1) ∧ (plan w n)[i].offset = i * w ∧
      (plan w n)[i].length = min w (n - i * w) := by
  simp [plan]

/-- **The length of a segment**: that of a block, and what remains for the last one. -/
theorem length_getElem_plan (pos : 0 < w) {i : Nat} (hi : i < (plan w n).length) :
    (plan w n)[i].length = if i + 1 < count w n then w else n - (count w n - 1) * w := by
  rw [(getElem_plan hi).2.2]
  rw [length_plan] at hi
  have hrow : (i + 1) * w = i * w + w := Nat.succ_mul i w
  by_cases hlater : i + 1 < count w n
  · have hfull : (i + 1) * w < n := mul_lt_of_lt_count hlater
    rw [if_pos hlater]
    omega
  · have hlast : count w n = i + 1 := by omega
    have hrest : n ≤ (i + 1) * w := (count_le_iff pos).mp (Nat.le_of_eq hlast)
    rw [if_neg hlater, hlast, Nat.add_sub_cancel]
    omega

theorem length_getElem_plan_pos (pos : 0 < w) {i : Nat} (hi : i < (plan w n).length) :
    1 ≤ (plan w n)[i].length := by
  have hinside : i * w < n := mul_lt_of_lt_count (by rwa [length_plan] at hi)
  rw [(getElem_plan hi).2.2]
  omega

/-- **Segments are numbered from one exactly as long as the numbers do not wrap.** If there are
too many, the first one to be numbered wrongly is at position `2 ^ 32 - 1`: it is numbered
zero. -/
theorem numbered_iff :
    (∀ i (hi : i < (plan w n).length), (plan w n)[i].index.toNat = i + 1) ↔
      count w n ≤ 2 ^ 32 - 1 := by
  constructor
  · intro hnumbers
    refine Nat.not_lt.mp fun hmany => ?_
    have hwrong : 2 ^ 32 - 1 < (plan w n).length := by
      rw [length_plan]
      exact hmany
    have hnumber := hnumbers (2 ^ 32 - 1) hwrong
    rw [(getElem_plan hwrong).1] at hnumber
    exact absurd hnumber (by decide)
  · intro hcount i hi
    rw [(getElem_plan hi).1]
    rw [length_plan] at hi
    refine UInt32.toNat_ofNat_of_lt' ?_
    change i + 1 < 2 ^ 32
    omega

/-! ### Going through a buffer with a counter -/

/-- **The segments from `offset` on, numbered by a counter.** One segment is cut off after the
other, of `w` bytes or of as many as are left, until nothing is. The counter is read for each of
them and advanced at once, modulo `2 ^ 32`. -/
def countOff (pos : 0 < w) (counter : UInt32) (offset : Nat) : List (Segment w n) :=
  if inside : offset < n then
    { index := counter
      offset := offset
      length := min w (n - offset)
      fits := by omega
      length_le := Nat.min_le_left _ _ } ::
      countOff pos (counter + 1) (offset + min w (n - offset))
  else []
termination_by n - offset

/-- **After `i` segments** the counter has been advanced `i` times, the walk stands where the
next segment begins, and what is left of it are the other segments of the plan. -/
theorem countOff_eq_drop_plan (pos : 0 < w) {i : Nat} (hi : i ≤ count w n) :
    countOff pos (UInt32.ofNat (i + 1)) (min (i * w) n) = (plan w n).drop i := by
  -- The induction is on the number of segments that are left.
  induction hleft : count w n - i generalizing i with
  | zero =>
    have hend : n ≤ i * w := (count_le_iff pos).mp (by omega)
    rw [countOff, dif_neg (by omega), List.drop_eq_nil_of_le (by rw [length_plan]; omega)]
  | succ left ih =>
    have hinside : i * w < n := mul_lt_of_lt_count (by omega)
    have hplace : i < (plan w n).length := by
      rw [length_plan]
      omega
    have hstart : min (i * w) n = i * w := by omega
    have hnext : i * w + min w (n - i * w) = min ((i + 1) * w) n := by
      rw [Nat.succ_mul]
      omega
    have hcounter : UInt32.ofNat (i + 1) + 1 = UInt32.ofNat (i + 1 + 1) :=
      (UInt32.ofNat_add (i + 1) 1).symm
    rw [hstart, countOff, dif_pos hinside, hnext, hcounter, ih (by omega) (by omega),
      List.drop_eq_getElem_cons hplace]
    simp [plan]

/-- **The walk comes to the segments of the plan.** -/
theorem countOff_eq_plan (pos : 0 < w) : countOff pos 1 0 = plan w n := by
  simpa using countOff_eq_drop_plan (n := n) pos (Nat.zero_le _)

end Segment

/-! ### First messages -/

/-- A salt and a number can be read back from the two of them written one behind the other. -/
theorem append_bigEndian_inj {salt salt' : Bytes} {k i i' : Nat} (hi : i < 256 ^ k)
    (hi' : i' < 256 ^ k) :
    salt ++ bigEndian k i = salt' ++ bigEndian k i' ↔ salt = salt' ∧ i = i' := by
  constructor
  · intro h
    obtain ⟨hsalt, hnumber⟩ := List.append_inj' h (by simp)
    exact ⟨hsalt, (bigEndian_inj hi hi').mp hnumber⟩
  · rintro ⟨rfl, rfl⟩
    rfl

/-- **The first messages of the blocks** of a key, in order. -/
def firstMessages (width : Nat) (salt : Bytes) (n : Nat) : List Bytes :=
  (Segment.plan width n).map fun segment => (firstPieces salt segment.index).flatten

section FirstMessages

variable {width n : Nat}

theorem firstMessages_eq (hcount : Segment.count width n < 2 ^ 32) (salt : Bytes) :
    firstMessages width salt n =
      (List.range (Segment.count width n)).map fun i => salt ++ bigEndian 4 (i + 1) := by
  have hplan := congrArg (List.map fun index => (firstPieces salt index).flatten)
    (Segment.map_index_plan (w := width) (n := n))
  rw [List.map_map, List.map_map] at hplan
  refine hplan.trans (List.map_congr_left fun i hi => ?_)
  have hlt := List.mem_range.mp hi
  exact flatten_firstPieces_ofNat salt (by omega)

/-- **No two blocks of a key begin with the same message**, as long as the numbers do not
wrap. -/
theorem nodup_firstMessages (hcount : Segment.count width n < 2 ^ 32) (salt : Bytes) :
    (firstMessages width salt n).Nodup := by
  rw [firstMessages_eq hcount]
  refine List.Nodup.map_on (fun i hi i' hi' h => ?_) List.nodup_range
  have hlt := List.mem_range.mp hi
  have hlt' := List.mem_range.mp hi'
  obtain ⟨-, hnumbers⟩ := (append_bigEndian_inj (by omega) (by omega)).mp h
  exact Nat.succ.inj hnumbers

/-- **Blocks under two salts never begin with the same message**, not even if one salt is the
front of the other: the number behind it always takes four bytes. -/
theorem disjoint_firstMessages {salt salt' : Bytes} (hsalts : salt ≠ salt')
    (width width' n n' : Nat) :
    List.Disjoint (firstMessages width salt n) (firstMessages width' salt' n') := by
  intro message hmem hmem'
  obtain ⟨segment, -, rfl⟩ := List.mem_map.mp hmem
  obtain ⟨segment', -, h⟩ := List.mem_map.mp hmem'
  simp only [firstPieces, List.flatten_cons, List.flatten_nil, List.append_nil] at h
  exact hsalts (List.append_inj' h (by simp)).1.symm

end FirstMessages

/-! ### The first call of a block -/

/-- Blocks whose numbers are given begin with their first messages, as many calls apart as there
are rounds. -/
theorem getElem?_callsOf_flatMap_blockSteps (prf : Prf) {request : Request}
    (hrounds : request.rounds ≠ 0) (numbers : List UInt32) {i : Nat} (hi : i < numbers.length) :
    (callsOf (numbers.flatMap (blockSteps prf request)))[i * request.rounds.toNat]? =
      some ⟨request.password, (firstPieces request.salt numbers[i]).flatten⟩ := by
  induction numbers generalizing i with
  | nil => exact absurd hi (Nat.not_lt_zero i)
  | cons number numbers ih =>
    have hlength := length_callsOf_blockSteps prf hrounds number
    rw [List.flatMap_cons, callsOf_append]
    cases i with
    | zero =>
      rw [Nat.zero_mul, callsOf_blockSteps]
      rfl
    | succ i =>
      -- Leaving out the calls of the first block moves every place down by one block.
      rw [List.getElem?_append_right (by rw [hlength, Nat.succ_mul]; omega), hlength, Nat.succ_mul,
        Nat.add_sub_cancel]
      exact ih (Nat.lt_of_succ_lt_succ hi)

section Derivation

variable {n : Nat} {prf : BlockPrf} {request : Request}

/-- **The block at position `i` begins with the salt and the number `i + 1`**, in whatever way
the derivation ends, if it comes to that block. -/
theorem first_call_deriveCancellable (flag : CancelFlag)
    (hlimits : limitFault? prf.width request.rounds n = none) (buffer : Buffer n)
    (journal : Journal) :
    let run := deriveCancellable prf flag request buffer journal
    ∃ made, run.2.calls.toList = journal.calls.toList ++ made ∧
      (run.1.status = .ok () → made.length = Segment.count prf.width n * request.rounds.toNat) ∧
      ∀ i < Segment.count prf.width n, ∀ call, made[i * request.rounds.toNat]? = some call →
        call = ⟨request.password, request.salt ++ bigEndian 4 (i + 1)⟩ := by
  intro run
  have hrounds := (limits_of_limitFault?_eq_none hlimits).1
  have hcount := count_lt_of_limitFault?_eq_none hlimits
  obtain ⟨made, hcalls, ⟨rest, hrest⟩, hall⟩ :=
    calls_deriveCancellable flag hlimits buffer journal
  refine ⟨made, hcalls, fun hok => ?_, fun i hi call hcall => ?_⟩
  · rw [hall hok, length_callsOf_schedule prf.toPrf hrounds]
  · have hfirst := getElem?_callsOf_flatMap_blockSteps prf.toPrf hrounds
      ((List.range (Segment.count prf.width n)).map fun i => UInt32.ofNat (i + 1))
      (i := i) (by simpa using hi)
    rw [List.getElem_map, List.getElem_range, flatten_firstPieces_ofNat _ (by omega),
      List.flatMap_map, ← schedule_eq] at hfirst
    -- The calls that were made are the first ones of the schedule.
    obtain ⟨hmade, -⟩ := List.getElem?_eq_some_iff.mp hcall
    rw [← hrest, List.getElem?_append_left hmade, hcall] at hfirst
    exact Option.some.inj hfirst

end Derivation

/-- **The limit on the length is what keeps the numbers of the blocks from wrapping.**

The product that bounds the length fits in 64 bits, and a key is accepted exactly if it has at
least one byte and at most `2 ^ 32 - 1` blocks, that is, if all its segments are numbered as
they are counted.

For an accepted key, going through the buffer with a counter comes to the segments of the plan:
the one at position `i` is numbered `i + 1`, and all are as long as a block, but for the last
one, which takes what remains. The calls show these numbers: the first call of a block is made
with the salt and the number of the block. So no two blocks begin with the same message, neither
within a key nor under two salts. -/
theorem accepted_iff_numbers_do_not_wrap :
    (∀ (width : Nat) (rounds : UInt32) (n : Nat) (journal : Journal),
      1 ≤ width → width ≤ 2 ^ 32 + 1 → rounds ≠ 0 →
      let accepted := (checkLimits width rounds n journal).1 = .ok ()
      let plan := Segment.plan width n
      (maxKeyLength width).toNat = (2 ^ 32 - 1) * width ∧
      (accepted ↔ 1 ≤ n ∧ (n + width - 1) / width ≤ 2 ^ 32 - 1) ∧
      (accepted ↔ 1 ≤ n ∧ ∀ i (hi : i < plan.length), plan[i].index.toNat = i + 1)) ∧
    (∀ (prf : BlockPrf) (request : Request) (n : Nat) (journal : Journal),
      (checkLimits prf.width request.rounds n journal).1 = .ok () →
      let blocks := (n + prf.width - 1) / prf.width
      let plan := Segment.plan prf.width n
      let rounds := request.rounds.toNat
      (plan = Segment.countOff prf.width_pos 1 0 ∧ plan.length = blocks) ∧
      (∀ i (hi : i < plan.length), plan[i].index.toNat = i + 1 ∧ plan[i].offset = i * prf.width ∧
        plan[i].length = (if i + 1 < blocks then prf.width else n - (blocks - 1) * prf.width) ∧
        1 ≤ plan[i].length ∧ plan[i].length ≤ prf.width) ∧
      (∀ (flag : CancelFlag) (buffer : Buffer n),
        let run := deriveCancellable prf flag request buffer journal
        ∃ made, run.2.calls.toList = journal.calls.toList ++ made ∧
          (run.1.status = .ok () → made.length = blocks * rounds) ∧
          ∀ i < blocks, ∀ call, made[i * rounds]? = some call →
            call = ⟨request.password, request.salt ++ bigEndian 4 (i + 1)⟩) ∧
      (firstMessages prf.width request.salt n).Nodup ∧
      ∀ (other : BlockPrf) (salt : Bytes) (m : Nat), salt ≠ request.salt →
        List.Disjoint (firstMessages prf.width request.salt n)
          (firstMessages other.width salt m)) ∧
    ∀ (salt salt' : Bytes) (i i' : Nat), i < 2 ^ 32 → i' < 2 ^ 32 →
      (salt ++ bigEndian 4 i = salt' ++ bigEndian 4 i' ↔ salt = salt' ∧ i = i') := by
  refine ⟨fun width rounds n journal hpos hwidth hrounds => ?_,
    fun prf request n journal haccepted => ?_,
    fun salt salt' i i' hi hi' => append_bigEndian_inj hi hi'⟩
  · have hblocks : (checkLimits width rounds n journal).1 = .ok () ↔
        1 ≤ n ∧ Segment.count width n ≤ 2 ^ 32 - 1 := by
      rw [checkLimits_eq_ok_iff, limitFault?_eq_none_iff hwidth, Segment.count_le_iff hpos]
      simp only [hrounds, false_or]
      omega
    refine ⟨toNat_maxKeyLength hwidth, hblocks, hblocks.trans ?_⟩
    rw [Segment.numbered_iff]
  · have hlimits := limitFault?_eq_none_of_checkLimits haccepted
    have hcount := count_lt_of_limitFault?_eq_none hlimits
    have hnumbers := Segment.numbered_iff.mpr (Nat.le_pred_of_lt hcount)
    exact ⟨⟨(Segment.countOff_eq_plan _).symm, Segment.length_plan⟩,
      fun i hi => ⟨hnumbers i hi, (Segment.getElem_plan hi).2.1,
        Segment.length_getElem_plan prf.width_pos hi,
        Segment.length_getElem_plan_pos prf.width_pos hi, Segment.length_le _⟩,
      fun flag buffer => first_call_deriveCancellable flag hlimits buffer journal,
      nodup_firstMessages hcount _,
      fun other salt m hsalt => disjoint_firstMessages hsalt.symm _ _ _ _⟩

/-- The widest function whose bound fits in 64 bits, and the longest key of the checksum, whose
last block has the largest number there is. -/
theorem accepted_iff_numbers_do_not_wrap_longest :
    let accepted := (checkLimits (2 ^ 32 + 1) 1 (2 ^ 64 - 1) .empty).1 = .ok ()
    let longest := (2 ^ 32 - 1) * 8
    let plan := Segment.plan 8 longest
    let salt : Bytes := [0x73, 0x61, 0x6c, 0x74]
    ((1 ≤ 2 ^ 32 + 1 ∧ 2 ^ 32 + 1 ≤ 2 ^ 32 + 1 ∧ (1 : UInt32) ≠ 0) ∧
      (maxKeyLength (2 ^ 32 + 1)).toNat = (2 ^ 32 - 1) * (2 ^ 32 + 1) ∧
      (accepted ↔ 1 ≤ 2 ^ 64 - 1 ∧ (2 ^ 64 - 1 + (2 ^ 32 + 1) - 1) / (2 ^ 32 + 1) ≤ 2 ^ 32 - 1)) ∧
    ((checkLimits checksumPrf.width 2 longest .empty).1 = .ok () ∧
      (plan = Segment.countOff checksumPrf.width_pos 1 0 ∧ plan.length = (longest + 8 - 1) / 8) ∧
      (firstMessages 8 salt longest).Nodup) ∧
    ((5 < 2 ^ 32 ∧ 6 < 2 ^ 32) ∧
      (salt ++ bigEndian 4 5 = (salt ++ [0]) ++ bigEndian 4 6 ↔ salt = salt ++ [0] ∧ 5 = 6)) :=
  have hwide := accepted_iff_numbers_do_not_wrap.1 (2 ^ 32 + 1) 1 (2 ^ 64 - 1) .empty
    (by decide) (by decide) (by decide)
  have haccepted : (checkLimits checksumPrf.width 2 ((2 ^ 32 - 1) * 8) .empty).1 = .ok () := rfl
  have hlongest := accepted_iff_numbers_do_not_wrap.2.1 checksumPrf
    ⟨[0x70, 0x77], [0x73, 0x61, 0x6c, 0x74], 2⟩ ((2 ^ 32 - 1) * 8) .empty haccepted
  ⟨⟨⟨by decide, by decide, by decide⟩, hwide.1, hwide.2.1⟩,
    ⟨haccepted, hlongest.1, hlongest.2.2.2.1⟩, ⟨by decide, by decide⟩,
    accepted_iff_numbers_do_not_wrap.2.2 [0x73, 0x61, 0x6c, 0x74] [0x73, 0x61, 0x6c, 0x74, 0] 5 6
      (by decide) (by decide)⟩

end KeyDerivation
