import KeyDerivation.Derivation.Derive
import KeyDerivation.Proofs.Derivation.Schedule

/-!
# The engine executes its schedule and computes the key

Every part of the engine does two things at once: it goes through its schedule, and, if
it gets to the end, it has computed what it is to compute.
`KeyDerivation.Executes` says both, and the parts are put together by one rule for each
way in which the engine goes on: a look, a call, and another part.

From the inside out:

* `KeyDerivation.continueChain_executes` – the rounds after the first;
* `KeyDerivation.deriveBlock_executes` – a block, whatever the working arrays hold when it
  begins;
* `KeyDerivation.fillSegments_executes` – all segments of a buffer, each written with the
  front of its block.
-/

namespace KeyDerivation

/-! ### Journaled computations -/

theorem bind_apply {α β : Type} (x : Journaled α) (f : α → Journaled β)
    (journal : Journal) : (x >>= f) journal = f (x journal).1 (x journal).2 := rfl

theorem map_apply {α β : Type} (f : α → β) (x : Journaled α) (journal : Journal) :
    (f <$> x) journal = (f (x journal).1, (x journal).2) := rfl

theorem poll_of_raised {flag : CancelFlag} {journal : Journal} (h : flag journal = true) :
    poll flag journal = (true, journal.stopped) := by
  rw [poll, h, Journal.stopped]

theorem poll_of_lowered {flag : CancelFlag} {journal : Journal} (h : ¬flag journal = true) :
    poll flag journal = (false, Step.note journal .look) := by
  rw [poll, Bool.eq_false_iff.mpr h, Step.note]

/-! ### Computations that follow a schedule -/

/-- **A computation follows a schedule**: from every journal it goes where executing the
schedule goes and says whether it got to the end, and if it did, what it has computed
is as `P` says. -/
def Executes {α : Type} (flag : CancelFlag) (computation : Journaled (Bool × α))
    (steps : List Step) (P : α → Prop) : Prop :=
  ∀ journal, ∃ a,
    computation journal =
      (((execute flag steps journal).1, a), (execute flag steps journal).2) ∧
    ((execute flag steps journal).1 = true → P a)

namespace Executes

variable {α β : Type} {flag : CancelFlag} {steps steps' : List Step} {P : α → Prop}
  {Q : β → Prop}

/-- Being done follows the empty schedule. -/
theorem done {a : α} (ha : P a) : Executes flag (pure (true, a)) [] P :=
  fun _ => ⟨a, rfl, fun _ => ha⟩

theorem imp {P' : α → Prop} {computation : Journaled (Bool × α)}
    (h : Executes flag computation steps P) (himp : ∀ a, P a → P' a) :
    Executes flag computation steps P' := by
  intro journal
  obtain ⟨a, heq, ha⟩ := h journal
  exact ⟨a, heq, fun hdone => himp a (ha hdone)⟩

/-- **A look**, which ends the computation if the flag is raised. -/
theorem look {computation : Journaled (Bool × α)} (h : Executes flag computation steps P)
    (a : α) :
    Executes flag (do if ← poll flag then return (false, a) else computation)
      (.look :: steps) P := by
  intro journal
  rw [bind_apply, execute]
  by_cases hflag : flag journal
  · rw [poll_of_raised hflag, if_pos rfl, if_pos hflag]
    exact ⟨a, rfl, fun hdone => absurd hdone Bool.false_ne_true⟩
  · rw [poll_of_lowered hflag, if_neg Bool.false_ne_true, if_neg hflag]
    exact h _

/-- The look before a round, if one is due. -/
theorem lookBefore {computation : Journaled (Bool × α)} (h : Executes flag computation steps P)
    (a : α) (round : Nat) :
    Executes flag (do if ← pollBefore flag round then return (false, a) else computation)
      (KeyDerivation.lookBefore round ++ steps) P := by
  by_cases hdue : round % pollInterval = 0
  · rw [pollBefore, if_pos hdue, KeyDerivation.lookBefore, if_pos hdue]
    exact h.look a
  · rw [pollBefore, if_neg hdue, KeyDerivation.lookBefore, if_neg hdue]
    exact h

/-- **A call**, with whose output the computation goes on. -/
theorem call (prf : Prf) (key : Bytes) (pieces : List Bytes)
    {f : Buffer prf.width → Journaled (Bool × α)}
    (h : Executes flag (f (prf.value key pieces)) steps P) :
    Executes flag (invoke prf key pieces >>= f) (.call ⟨key, pieces.flatten⟩ :: steps) P :=
  fun journal => h (Step.note journal (.call ⟨key, pieces.flatten⟩))

/-- **One computation after another**: the second one begins if the first one got to its
end. -/
theorem andThen {computation : Journaled (Bool × α)} (f : α → Journaled (Bool × β)) (b : β)
    (h : Executes flag computation steps P) (hf : ∀ a, P a → Executes flag (f a) steps' Q) :
    Executes flag
      (do
        let (completed, a) ← computation
        if completed then f a else return (false, b))
      (steps ++ steps') Q := by
  intro journal
  obtain ⟨a, heq, ha⟩ := h journal
  rw [bind_apply, heq, execute_append]
  by_cases hdone : (execute flag steps journal).1 = true
  · rw [if_pos hdone]
    obtain ⟨b', heq', hb'⟩ := hf a (ha hdone) (execute flag steps journal).2
    refine ⟨b', ?_, hb'⟩
    rw [← heq']
    simp only [hdone, if_true]
  · rw [if_neg hdone]
    refine ⟨b, ?_, fun hcon => absurd hcon hdone⟩
    simp only [hdone, Bool.false_eq_true, if_false]
    rfl

end Executes

/-! ### A block -/

section Block

variable (prf : BlockPrf) (flag : CancelFlag)

/-- **Further links.** If the arrays hold a chain up to the link numbered `k`, they hold in
the end as many more links as there are rounds to go. -/
theorem continueChain_executes (password : Bytes) (pieces : List Bytes) (count k : Nat)
    (scratch : Scratch)
    (h : scratch.Holds (prf.link password pieces k) (prf.block password pieces (k + 1))) :
    Executes flag (continueChain prf flag password count (k + 2) scratch)
      ((List.range' (k + 2) count).flatMap (roundSteps prf.toPrf password pieces))
      fun scratch' => scratch'.Holds (prf.link password pieces (k + count))
        (prf.block password pieces (k + count + 1)) := by
  induction count generalizing k scratch with
  | zero => exact Executes.done h
  | succ count ih =>
    -- The message of the round is what the array holds, and what it holds is the last link.
    have hmessage : [Scratch.front scratch.last prf.width].flatten =
        (prf.link password pieces k).toList := by
      rw [List.flatten_singleton, h.front_last]
    have hnext : prf.value password [Scratch.front scratch.last prf.width] =
        prf.link password pieces (k + 1) := by
      rw [h.front_last]
      rfl
    have hscratch := h.add (prf.link password pieces (k + 1)) prf.width_le
    rw [← Prf.block_succ] at hscratch
    have hrest := ih (k + 1) _ hscratch
    rw [show k + 1 + count = k + (count + 1) by omega] at hrest
    rw [List.range'_succ, List.flatMap_cons, roundSteps, List.append_assoc, Nat.add_sub_cancel,
      ← hmessage]
    refine Executes.lookBefore (Executes.call _ _ _ ?_) scratch (k + 2)
    rw [hnext]
    exact hrest

/-- **A block.** Whatever the arrays hold beforehand, they hold the block in the end. -/
theorem deriveBlock_executes (request : Request) (hrounds : request.rounds ≠ 0)
    (index : UInt32) (scratch : Scratch) :
    Executes flag (deriveBlock prf flag request index scratch)
      (blockSteps prf.toPrf request index)
      fun scratch' => Scratch.front scratch'.total prf.width =
        (prf.block request.password (firstPieces request.salt index)
          request.rounds.toNat).toList := by
  have hcount : 0 + (request.rounds.toNat - 1) + 1 = request.rounds.toNat := by
    have := Request.toNat_rounds_pos hrounds
    omega
  have hfirst := Scratch.holds_begin scratch
    (prf.value request.password (firstPieces request.salt index)) prf.width_le
  have hchain := continueChain_executes prf flag request.password
    (firstPieces request.salt index) (request.rounds.toNat - 1) 0 _
    (by rw [Prf.block_one]; exact hfirst)
  rw [hcount] at hchain
  exact Executes.look (Executes.call _ _ _ (hchain.imp fun _ h => h.front_total)) scratch

end Block

/-! ### A buffer -/

section Buffer

variable {n : Nat}

/-- What is written to a segment depends only on the front of the array it comes from. -/
theorem Segment.write_congr {w m : Nat} (segment : Segment w n) {array : Buffer m}
    {block : Buffer w} (wide : w ≤ m) (h : array.toList.take w = block.toList)
    (buffer : Buffer n) :
    segment.write array wide buffer = segment.write block (Nat.le_refl w) buffer := by
  have hfront : array.toList.take segment.length = block.toList.take segment.length := by
    rw [← h, List.take_take, Nat.min_eq_left segment.length_le]
  simp only [write, hfront]

variable (prf : BlockPrf) (flag : CancelFlag) (request : Request)

/-- A buffer after each of the given segments has been written with its block. -/
def written (segments : List (Segment prf.width n)) (buffer : Buffer n) : Buffer n :=
  segments.foldl (fun buffer segment =>
    segment.write (prf.block request.password (firstPieces request.salt segment.index)
      request.rounds.toNat) (Nat.le_refl _) buffer) buffer

/-- **All segments.** Whatever the arrays hold beforehand, every segment is written with its
block. -/
theorem fillSegments_executes (hrounds : request.rounds ≠ 0)
    (segments : List (Segment prf.width n)) (scratch : Scratch) (buffer : Buffer n) :
    Executes flag (fillSegments prf flag request segments scratch buffer)
      (segments.flatMap fun segment => blockSteps prf.toPrf request segment.index)
      (· = written prf request segments buffer) := by
  induction segments generalizing scratch buffer with
  | nil => exact Executes.done rfl
  | cons segment rest ih =>
    rw [List.flatMap_cons, fillSegments]
    refine Executes.andThen (fun scratch' => fillSegments prf flag request rest scratch'
      (segment.write scratch'.total prf.width_le buffer)) buffer
      (deriveBlock_executes prf flag request hrounds segment.index scratch)
      fun scratch' hblock => ?_
    -- Only the front of the array matters here; the arrays go on as they are.
    rw [Segment.write_congr segment prf.width_le hblock]
    exact ih scratch' _

/-! ### A derivation -/

/-- The journal of a derivation once it has announced itself. -/
def Journal.begun (journal : Journal) (width n : Nat) : Journal :=
  { journal with
    events := journal.events.push
      (.started request.rounds.toNat n width (Segment.count width n)) }

/-- **A derivation within the limits**: if its schedule gets to the end, all segments are
written, and if not, the whole buffer is zeroed. -/
theorem deriveCancellable_apply (hlimits : limitFault? prf.width request.rounds n = none)
    (buffer : Buffer n) (journal : Journal) :
    deriveCancellable prf flag request buffer journal =
      let run := execute flag (schedule prf.toPrf request n) (journal.begun request prf.width n)
      if run.1 then (⟨.ok (), written prf request (Segment.plan prf.width n) buffer⟩, run.2)
      else (⟨.error .cancelled, .zeros n⟩, (emit .cancelled run.2).2) := by
  have hrounds := (limits_of_limitFault?_eq_none hlimits).1
  obtain ⟨filled, heq, hfilled⟩ := fillSegments_executes prf flag request hrounds
    (Segment.plan prf.width n) .zeros buffer (journal.begun request prf.width n)
  -- A check that is passed leaves no trace, so the journal begins with the announcement.
  have hcheck : checkLimits prf.width request.rounds n = pure (.ok ()) := by
    rw [checkLimits, hlimits]
  have hfill : deriveCancellable prf flag request buffer journal =
      (fillSegments prf flag request (Segment.plan prf.width n) .zeros buffer >>= fun run =>
        if run.1 then pure (⟨.ok (), run.2⟩ : Outcome n)
        else do
          emit .cancelled
          return ⟨.error .cancelled, run.2.clear 0 n⟩) (journal.begun request prf.width n) := by
    rw [deriveCancellable, hcheck]
    rfl
  rw [hfill, bind_apply, heq]
  by_cases hdone : (execute flag (schedule prf.toPrf request n)
      (journal.begun request prf.width n)).1 = true
  · have hend := hfilled hdone
    rw [schedule] at hdone ⊢
    simp only [hdone, if_true, hend]
    rfl
  · rw [schedule] at hdone ⊢
    simp only [hdone, Bool.false_eq_true, if_false, Buffer.clear_all]
    rfl

/-- A derivation on a stretch is one on a buffer of its own, put back. -/
theorem deriveWithin_apply {m : Nat} (outer : Buffer m) (offset : Nat)
    (inside : offset + n ≤ m) (journal : Journal) :
    deriveWithin prf flag request outer offset n inside journal =
      let run := deriveCancellable prf flag request (outer.stretch offset n inside) journal
      (⟨run.1.status, outer.splice offset run.1.buffer inside⟩, run.2) := rfl

end Buffer

end KeyDerivation
