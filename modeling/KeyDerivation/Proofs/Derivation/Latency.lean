import KeyDerivation.Proofs.Derivation.Calls

/-!
# How soon a raised flag is noticed

A flag is looked at before every block, and inside a block before every round whose number
is a multiple of `KeyDerivation.pollInterval`. So the numbers of calls after which a
derivation looks at its flag are fixed by the number of rounds and of blocks alone:
`KeyDerivation.lookPoints` lists them. They are not evenly spaced. A block of 1024 rounds is
looked into once, after 1023 calls, and the next look is one call later, before the next
block.

A flag that is raised by a call, and stays raised, is noticed at the first of these numbers
that has been reached since (`KeyDerivation.execute_afterCalls`), if there is one: after the
last look of the last block nobody looks any more, and the derivation ends with the key.
There are never more than 1024 calls from one look to the next, or from the last look to the
end (`KeyDerivation.exists_lookPoint_near`), so that at most 1023 calls follow the one that
raised the flag.
-/

namespace KeyDerivation

/-! ### The looks of a schedule -/

/-- **When a schedule looks at its flag**: the number of calls finished before each look, if
there were `made` of them to begin with. -/
def looksOf (made : Nat) : List Step → List Nat
  | [] => []
  | .call _ :: rest => looksOf (made + 1) rest
  | .look :: rest => made :: looksOf made rest

theorem looksOf_append (made : Nat) (steps steps' : List Step) :
    looksOf made (steps ++ steps') =
      looksOf made steps ++ looksOf (made + (callsOf steps).length) steps' := by
  induction steps generalizing made with
  | nil => rfl
  | cons step steps ih =>
    cases step with
    | call c =>
      rw [List.cons_append, looksOf, looksOf, ih, callsOf_call, List.length_cons]
      congr 2
      omega
    | look => rw [List.cons_append, looksOf, looksOf, ih, callsOf_look, List.cons_append]

theorem le_of_mem_looksOf {made s : Nat} {steps : List Step} (h : s ∈ looksOf made steps) :
    made ≤ s := by
  induction steps generalizing made with
  | nil => simp [looksOf] at h
  | cons step steps ih =>
    cases step with
    | call c => exact Nat.le_of_succ_le (ih h)
    | look =>
      rcases List.mem_cons.mp h with rfl | hlater
      · exact Nat.le_refl _
      · exact ih hlater

/-- **A flag raised by the `k`-th call is noticed at the first look after it**, if there is
one. Calls are counted from the `first` ones that the journal held before. -/
theorem execute_afterCalls {first k : Nat} (hk : 1 ≤ k) (steps : List Step) {made : Nat}
    {journal : Journal} (hmade : journal.calls.size = first + made) :
    let run := execute (.afterCalls (first + k)) steps journal
    (run.1 = true ∧ run.2.calls.size = first + (made + (callsOf steps).length) ∧
      ∀ s ∈ looksOf made steps, s < k) ∨
    (run.1 = false ∧ ∃ s, IsLeast {s | s ∈ looksOf made steps ∧ k ≤ s} s ∧
      run.2.calls.size = first + s) := by
  induction steps generalizing made journal with
  | nil => exact Or.inl ⟨rfl, hmade, nofun⟩
  | cons step steps ih =>
    cases step with
    | call c =>
      have hnext : (Step.note journal (.call c)).calls.size = first + (made + 1) := by
        simp [Step.note, hmade]
        omega
      have hcount : made + 1 + (callsOf steps).length =
          made + (callsOf (.call c :: steps)).length := by
        rw [callsOf_call, List.length_cons]
        omega
      rw [← hcount]
      exact ih hnext
    | look =>
      have hflag : CancelFlag.afterCalls (first + k) journal = decide (k ≤ made) := by
        rw [CancelFlag.afterCalls, hmade, decide_eq_decide]
        omega
      rcases Nat.lt_or_ge made k with hearly | hdue
      · -- Not raised yet: this look is too early, and what matters are the later ones.
        have hrun : execute (.afterCalls (first + k)) (.look :: steps) journal =
            execute (.afterCalls (first + k)) steps (Step.note journal .look) := by
          rw [execute, if_neg (by simpa [hflag] using hearly)]
        have hlooks : {s | s ∈ looksOf made (.look :: steps) ∧ k ≤ s} =
            {s | s ∈ looksOf made steps ∧ k ≤ s} := by
          ext s
          constructor
          · rintro ⟨hs, hks⟩
            rcases List.mem_cons.mp hs with rfl | hs
            · omega
            · exact ⟨hs, hks⟩
          · rintro ⟨hs, hks⟩
            exact ⟨List.mem_cons_of_mem _ hs, hks⟩
        rw [hrun, hlooks, callsOf_look]
        rcases ih (show (Step.note journal .look).calls.size = first + made from hmade) with
          ⟨hdone, hsize, hlate⟩ | hstop
        · refine Or.inl ⟨hdone, hsize, fun s hs => ?_⟩
          rcases List.mem_cons.mp hs with rfl | hs
          · exact hearly
          · exact hlate s hs
        · exact Or.inr hstop
      · -- Raised: no look comes before this one, so it is the least.
        have hrun : execute (.afterCalls (first + k)) (.look :: steps) journal =
            (false, journal.stopped) := by
          rw [execute, if_pos (by simpa [hflag] using hdue)]
        rw [hrun]
        refine Or.inr ⟨rfl, made, ⟨⟨List.mem_cons_self, hdue⟩, fun s hs => ?_⟩, hmade⟩
        exact le_of_mem_looksOf hs.1

/-! ### The looks of a derivation -/

section Looks

variable (prf : Prf)

theorem mem_looksOf_lookBefore {made round s : Nat} :
    s ∈ looksOf made (lookBefore round) ↔ round % pollInterval = 0 ∧ s = made := by
  unfold lookBefore
  split
  next hdue => simp [looksOf, hdue]
  next hnot => simp [looksOf, hnot]

/-- The looks of `count` rounds from `round` on: one before each that is a multiple of the
interval. -/
theorem mem_looksOf_rounds (password : Bytes) (pieces : List Bytes) (count round made : Nat)
    {s : Nat} :
    s ∈ looksOf made ((List.range' round count).flatMap (roundSteps prf password pieces)) ↔
      ∃ j < count, (round + j) % pollInterval = 0 ∧ s = made + j := by
  induction count generalizing round made with
  | zero => simp [looksOf]
  | succ count ih =>
    have hlater : s ∈ looksOf (made + 1)
          ((List.range' (round + 1) count).flatMap (roundSteps prf password pieces)) ↔
        ∃ j < count, (round + (j + 1)) % pollInterval = 0 ∧ s = made + (j + 1) := by
      simp only [ih, Nat.add_assoc, Nat.add_comm 1]
    rw [List.range'_succ, List.flatMap_cons, roundSteps, looksOf_append, looksOf_append,
      callsOf_append, callsOf_lookBefore, List.mem_append, List.mem_append, mem_looksOf_lookBefore]
    simp only [callsOf_call, callsOf_nil, List.nil_append, List.length_singleton, looksOf,
      List.not_mem_nil, or_false, hlater]
    constructor
    · rintro (⟨hdue, rfl⟩ | ⟨j, hj, hdue, rfl⟩)
      · exact ⟨0, Nat.succ_pos count, hdue, rfl⟩
      · exact ⟨j + 1, Nat.succ_lt_succ hj, hdue, rfl⟩
    · rintro ⟨j, hj, hdue, rfl⟩
      cases j with
      | zero => exact Or.inl ⟨hdue, rfl⟩
      | succ j => exact Or.inr ⟨j, Nat.lt_of_succ_lt_succ hj, hdue, rfl⟩

/-- **The looks of a block**: one before it begins, and one before each of its rounds that is
a multiple of 1024. Before round `j` there have been `j - 1` calls. -/
theorem mem_looksOf_blockSteps (request : Request) (index : UInt32) (made : Nat) {s : Nat} :
    s ∈ looksOf made (blockSteps prf request index) ↔
      s = made ∨ ∃ m, 1 ≤ m ∧ m ≤ request.rounds.toNat / 1024 ∧ s = made + 1024 * m - 1 := by
  rw [blockSteps, looksOf, List.mem_cons, looksOf, mem_looksOf_rounds, pollInterval]
  refine or_congr_right ⟨?_, ?_⟩
  · rintro ⟨j, hj, hdue, rfl⟩
    exact ⟨(2 + j) / 1024, by omega, by omega, by omega⟩
  · rintro ⟨m, hone, hm, rfl⟩
    exact ⟨1024 * m - 2, by omega, by omega, by omega⟩

/-- The looks of one block after the other, whatever their numbers. -/
theorem mem_looksOf_flatMap_blockSteps {request : Request} (hrounds : request.rounds ≠ 0)
    (indices : List UInt32) (made : Nat) {s : Nat} :
    s ∈ looksOf made (indices.flatMap (blockSteps prf request)) ↔
      ∃ b < indices.length, s = made + b * request.rounds.toNat ∨
        ∃ m, 1 ≤ m ∧ m ≤ request.rounds.toNat / 1024 ∧
          s = made + b * request.rounds.toNat + 1024 * m - 1 := by
  induction indices generalizing made with
  | nil => simp [looksOf]
  | cons index indices ih =>
    rw [List.flatMap_cons, looksOf_append, List.mem_append, mem_looksOf_blockSteps,
      length_callsOf_blockSteps prf hrounds, ih]
    -- The first block is the one numbered zero, and those behind it are numbered from one.
    have hshift : ∀ b, made + (b + 1) * request.rounds.toNat =
        made + request.rounds.toNat + b * request.rounds.toNat := by
      intro b
      rw [Nat.succ_mul]
      omega
    constructor
    · rintro (hfirst | ⟨b, hb, hlater⟩)
      · exact ⟨0, Nat.succ_pos _, by rwa [Nat.zero_mul, Nat.add_zero]⟩
      · exact ⟨b + 1, Nat.succ_lt_succ hb, by rwa [hshift]⟩
    · rintro ⟨b, hb, hlook⟩
      cases b with
      | zero => exact Or.inl (by rwa [Nat.zero_mul, Nat.add_zero] at hlook)
      | succ b => exact Or.inr ⟨b, Nat.lt_of_succ_lt_succ hb, by rwa [hshift] at hlook⟩

end Looks

/-- **When a derivation looks at its flag**: the numbers of calls after which it does, for a
number of rounds and a number of blocks. -/
def lookPoints (rounds blocks : Nat) : Set Nat :=
  {s | ∃ b < blocks, s = b * rounds ∨
    ∃ m, 1 ≤ m ∧ m ≤ rounds / 1024 ∧ s = b * rounds + 1024 * m - 1}

/-- **The looks of a derivation** come after these numbers of calls. -/
theorem mem_looksOf_schedule {n : Nat} (prf : Prf) {request : Request}
    (hrounds : request.rounds ≠ 0) {s : Nat} :
    s ∈ looksOf 0 (schedule prf request n) ↔
      s ∈ lookPoints request.rounds.toNat (Segment.count prf.width n) := by
  have hplan : schedule prf request n =
      ((Segment.plan prf.width n).map Segment.index).flatMap (blockSteps prf request) := by
    rw [List.flatMap_map, schedule]
  rw [hplan, mem_looksOf_flatMap_blockSteps prf hrounds, List.length_map, Segment.length_plan]
  simp only [Nat.zero_add]
  rfl

/-- No look comes after the last call. -/
theorem le_of_mem_lookPoints {rounds blocks s : Nat} (h : s ∈ lookPoints rounds blocks) :
    s ≤ blocks * rounds := by
  obtain ⟨b, hb, hs⟩ := h
  have hblock : (b + 1) * rounds ≤ blocks * rounds := Nat.mul_le_mul_right rounds hb
  rw [Nat.succ_mul] at hblock
  rcases hs with rfl | ⟨m, hone, hm, rfl⟩ <;> omega

/-- **There is a look soon after every call**: at most 1023 calls later, unless the derivation
has ended by then. -/
theorem exists_lookPoint_near {rounds blocks k : Nat} (hk : 1 ≤ k) (hlast : k ≤ blocks * rounds) :
    (∃ s ∈ lookPoints rounds blocks, k ≤ s ∧ s ≤ k + 1023) ∨ blocks * rounds ≤ k + 1023 := by
  -- The call is number `r + 1` of the block numbered `b`.
  obtain ⟨b, r, hr, hplace⟩ : ∃ b r, r < rounds ∧ k = b * rounds + r + 1 := by
    have hpos : 0 < rounds := Nat.pos_of_ne_zero fun hzero => by
      rw [hzero] at hlast
      omega
    refine ⟨(k - 1) / rounds, (k - 1) % rounds, Nat.mod_lt _ hpos, ?_⟩
    have := Nat.div_add_mod' (k - 1) rounds
    omega
  have hb : b < blocks := Nat.lt_of_not_le fun hnot => by
    have := Nat.mul_le_mul_right rounds hnot
    omega
  rcases Nat.lt_or_ge ((r + 1) / 1024) (rounds / 1024) with hinside | houtside
  · -- Another look is due in this block.
    refine Or.inl ⟨b * rounds + 1024 * ((r + 1) / 1024 + 1) - 1,
      ⟨b, hb, Or.inr ⟨(r + 1) / 1024 + 1, by omega, hinside, rfl⟩⟩, by omega, by omega⟩
  -- No more looks in this block, so what remains of it is short.
  rcases Nat.lt_or_ge (b + 1) blocks with hmore | hend
  · refine Or.inl ⟨(b + 1) * rounds, ⟨b + 1, hmore, Or.inl rfl⟩, ?_, ?_⟩
    · rw [Nat.succ_mul]
      omega
    · rw [Nat.succ_mul]
      omega
  · obtain rfl : blocks = b + 1 := by omega
    refine Or.inr ?_
    rw [Nat.succ_mul]
    omega

/-! ### The latency of a derivation -/

/-- **A derivation whose flag is raised by the `k`-th call** makes all its calls if every look
comes before that, and is cancelled at the first look that does not. -/
theorem deriveCancellable_afterCalls {n : Nat} (prf : BlockPrf) (request : Request)
    (hlimits : limitFault? prf.width request.rounds n = none) {k : Nat} (hk : 1 ≤ k)
    (buffer : Buffer n) (journal : Journal) :
    let points := lookPoints request.rounds.toNat (Segment.count prf.width n)
    let run :=
      deriveCancellable prf (.afterCalls (journal.calls.size + k)) request buffer journal
    (run.1.status = .ok () ∧
      run.2.calls.size =
        journal.calls.size + Segment.count prf.width n * request.rounds.toNat ∧
      ∀ s ∈ points, s < k) ∨
    (run.1.status = .error .cancelled ∧
      ∃ s, IsLeast {s | s ∈ points ∧ k ≤ s} s ∧ run.2.calls.size = journal.calls.size + s) := by
  intro points run
  have hrounds := (limits_of_limitFault?_eq_none hlimits).1
  have hlooks : ∀ s, s ∈ looksOf 0 (schedule prf.toPrf request n) ↔ s ∈ points :=
    fun s => mem_looksOf_schedule prf.toPrf hrounds
  have happly := deriveCancellable_apply prf (.afterCalls (journal.calls.size + k)) request
    hlimits buffer journal
  rcases execute_afterCalls hk (schedule prf.toPrf request n)
      (show (journal.begun request prf.width n).calls.size = journal.calls.size + 0 from rfl) with
    ⟨hdone, hsize, hearly⟩ | ⟨hstop, s, ⟨hs, hleast⟩, hsize⟩
  · have hrun : run = _ := happly.trans (if_pos hdone)
    refine Or.inl ⟨by rw [hrun], ?_, fun s hs => hearly s ((hlooks s).mpr hs)⟩
    rw [hrun, hsize, length_callsOf_schedule prf.toPrf hrounds, Nat.zero_add]
  · have hrun : run = _ := happly.trans (if_neg (by rw [hstop]; exact Bool.false_ne_true))
    refine Or.inr ⟨by rw [hrun], s, ⟨⟨(hlooks s).mp hs.1, hs.2⟩, fun s' h => ?_⟩, ?_⟩
    · exact hleast ⟨(hlooks s').mpr h.1, h.2⟩
    · rw [hrun]
      exact hsize

/-- **When a derivation notices that its flag was raised by the `k`-th call.**

It is cancelled if it looks at the flag after `k` calls or more, and then as many calls were
finished as at the first such look. Otherwise it makes all calls and ends with the key. If
the flag was raised at all, at most 1023 calls follow the one that raised it, for any number
of rounds and any length of the key. -/
theorem cancelled_at_first_look {n : Nat} (prf : BlockPrf) (request : Request)
    (journal : Journal) (haccepted : (checkLimits prf.width request.rounds n journal).1 = .ok ())
    {k : Nat} (hk : 1 ≤ k) (buffer : Buffer n) :
    let rounds := request.rounds.toNat
    let blocks := (n + prf.width - 1) / prf.width
    let run :=
      deriveCancellable prf (.afterCalls (journal.calls.size + k)) request buffer journal
    (run.1.status = .error .cancelled ↔ ∃ s ∈ lookPoints rounds blocks, k ≤ s) ∧
    (run.1.status = .error .cancelled →
      ∃ s, IsLeast {s | s ∈ lookPoints rounds blocks ∧ k ≤ s} s ∧
        run.2.calls.size = journal.calls.size + s) ∧
    (run.1.status ≠ .error .cancelled →
      run.1.status = .ok () ∧ run.2.calls.size = journal.calls.size + blocks * rounds) ∧
    (k ≤ blocks * rounds → run.2.calls.size ≤ journal.calls.size + k + 1023) := by
  intro rounds blocks run
  rcases deriveCancellable_afterCalls prf request (limitFault?_eq_none_of_checkLimits haccepted)
      hk buffer journal with ⟨hok, hsize, hearly⟩ | ⟨hcancelled, s, hleast, hsize⟩
  · have hnot : run.1.status ≠ .error .cancelled := by
      rw [show run.1.status = .ok () from hok]
      nofun
    have hnone : ¬∃ s ∈ lookPoints rounds blocks, k ≤ s := by
      rintro ⟨s, hs, hks⟩
      exact Nat.not_le.mpr (hearly s hs) hks
    refine ⟨iff_of_false hnot hnone, fun h => absurd h hnot, fun _ => ⟨hok, hsize⟩,
      fun hlast => ?_⟩
    rcases exists_lookPoint_near hk hlast with ⟨s, hs, hks, -⟩ | hend
    · exact absurd ⟨s, hs, hks⟩ hnone
    · have hall : run.2.calls.size = journal.calls.size + blocks * rounds := hsize
      omega
  · refine ⟨iff_of_true hcancelled ⟨s, hleast.1⟩, fun _ => ⟨s, hleast, hsize⟩,
      fun h => absurd hcancelled h, fun hlast => ?_⟩
    have hstop : run.2.calls.size = journal.calls.size + s := hsize
    have hmost : s ≤ blocks * rounds := le_of_mem_lookPoints hleast.1.1
    rcases exists_lookPoint_near hk hlast with ⟨s', hs', hks', hnear⟩ | hend
    · have := hleast.2 ⟨hs', hks'⟩
      omega
    · have : blocks * rounds ≤ k + 1023 := hend
      omega

/-- Two blocks of 2047 rounds, on a journal that already holds a call. The flag is raised
by the call right after the look into the first block, and the next look is the one before
the second block: 1023 calls follow, as many as ever can. -/
theorem cancelled_at_first_look_latest :
    let request : Request := ⟨[0x70, 0x77], [0x73, 0x61, 0x6c, 0x74], 2047⟩
    let journal : Journal := ⟨#[⟨[0x6b], [0x6d]⟩], #[], #[]⟩
    let run := deriveCancellable checksumPrf (.afterCalls (journal.calls.size + 1024)) request
      (.zeros 12) journal
    ((checkLimits checksumPrf.width request.rounds 12 journal).1 = .ok () ∧ 1 ≤ 1024) ∧
    (run.1.status = .error .cancelled ↔ ∃ s ∈ lookPoints 2047 2, 1024 ≤ s) ∧
    (run.1.status = .error .cancelled →
      ∃ s, IsLeast {s | s ∈ lookPoints 2047 2 ∧ 1024 ≤ s} s ∧
        run.2.calls.size = journal.calls.size + s) ∧
    (run.1.status ≠ .error .cancelled →
      run.1.status = .ok () ∧ run.2.calls.size = journal.calls.size + 2 * 2047) ∧
    (1024 ≤ 2 * 2047 → run.2.calls.size ≤ journal.calls.size + 1024 + 1023) :=
  have haccepted : (checkLimits checksumPrf.width 2047 12 ⟨#[⟨[0x6b], [0x6d]⟩], #[], #[]⟩).1 =
      .ok () := rfl
  ⟨⟨haccepted, by decide⟩, cancelled_at_first_look checksumPrf
    ⟨[0x70, 0x77], [0x73, 0x61, 0x6c, 0x74], 2047⟩ ⟨#[⟨[0x6b], [0x6d]⟩], #[], #[]⟩ haccepted
    (by decide) (.zeros 12)⟩

end KeyDerivation
