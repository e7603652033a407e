import KeyDerivation.Proofs.Derivation.Chain

/-!
# The schedule of a derivation

What a derivation calls and when it looks at its flag is fixed before it begins. Only
where it stops is up to the flag. This file separates the two:

* a **schedule** is a list of steps, each a call or a look
  (`KeyDerivation.Step`), and `KeyDerivation.blockSteps` is the one of a block;
* `KeyDerivation.execute` goes through a schedule until it is done or a look finds the
  flag raised;
* `KeyDerivation.execute_cases` says where it can stop: at the end, every look having
  found the flag down, or at a look that found it raised, and then at the first one.

The engine is shown to execute its schedule in
`KeyDerivation.Proofs.Derivation.Engine`; whatever is to be said about calls and polls
can then be said about lists.
-/

namespace KeyDerivation

/-! ### Steps -/

/-- **A step of a derivation**, as far as the journal shows it. -/
inductive Step
  /-- A call to the pseudorandom function. -/
  | call (call : Call)
  /-- A look at the cancellation flag. -/
  | look

/-- The journal after a step; a look has found the flag down. -/
def Step.note (journal : Journal) : Step → Journal
  | call c => { journal with calls := journal.calls.push c }
  | look => { journal with polls := journal.polls.push ⟨journal.calls.size, false⟩ }

namespace Journal

/-- The journal after a list of steps; all looks have found the flag down. -/
def after (journal : Journal) (steps : List Step) : Journal := steps.foldl Step.note journal

/-- The journal after a look that has found the flag raised. -/
def stopped (journal : Journal) : Journal :=
  { journal with polls := journal.polls.push ⟨journal.calls.size, true⟩ }

/-- All looks are added to the polls, and none of them has found the flag raised. -/
theorem polls_after (journal : Journal) (steps : List Step) :
    ∃ quiet : Array Poll, (journal.after steps).polls = journal.polls ++ quiet ∧
      ∀ poll ∈ quiet, poll.answer = false := by
  induction steps generalizing journal with
  | nil => exact ⟨#[], by simp [after], by simp⟩
  | cons step steps ih =>
    obtain ⟨quiet, hpolls, hquiet⟩ := ih (step.note journal)
    cases step with
    | call c => exact ⟨quiet, hpolls, hquiet⟩
    | look =>
      refine ⟨#[⟨journal.calls.size, false⟩] ++ quiet, ?_, ?_⟩
      · rw [← Array.append_assoc, Array.append_singleton]
        exact hpolls
      · intro poll hpoll
        rcases Array.mem_append.mp hpoll with hfirst | hlater
        · rw [Array.mem_singleton.mp hfirst]
        · exact hquiet poll hlater

/-- Neither calls nor looks are logged. -/
theorem events_after (journal : Journal) (steps : List Step) :
    (journal.after steps).events = journal.events := by
  induction steps generalizing journal with
  | nil => rfl
  | cons step steps ih => cases step <;> exact ih _

end Journal

/-! ### Executing a schedule -/

/-- **Going through a schedule** until it is done or a look finds the flag raised. Says
whether it is done. -/
def execute (flag : CancelFlag) : List Step → Journal → Bool × Journal
  | [], journal => (true, journal)
  | .call c :: rest, journal => execute flag rest (Step.note journal (.call c))
  | .look :: rest, journal =>
    if flag journal then (false, journal.stopped) else execute flag rest (Step.note journal .look)

variable (flag : CancelFlag)

/-- A schedule in two parts: the second one begins where the first one is done. -/
theorem execute_append (steps steps' : List Step) (journal : Journal) :
    execute flag (steps ++ steps') journal =
      if (execute flag steps journal).1 then execute flag steps' (execute flag steps journal).2
      else execute flag steps journal := by
  induction steps generalizing journal with
  | nil => rfl
  | cons step steps ih =>
    cases step with
    | call c => exact ih _
    | look =>
      -- A raised flag stops both sides here, and the second part is never begun.
      simp only [List.cons_append, execute]
      by_cases hflag : flag journal
      · simp only [if_pos hflag, Bool.false_eq_true, if_false]
      · simp only [if_neg hflag]
        exact ih _

/-- **Where a schedule can stop**: at its end, no look having found the flag raised, or at
a look that has found it raised, where none before has. -/
theorem execute_cases (steps : List Step) (journal : Journal) :
    execute flag steps journal = (true, journal.after steps) ∨
      ∃ before rest, steps = before ++ .look :: rest ∧
        execute flag steps journal = (false, (journal.after before).stopped) := by
  -- A step in front of the rest belongs to what comes before the look that stops it.
  induction steps generalizing journal with
  | nil => exact Or.inl rfl
  | cons step steps ih =>
    cases step with
    | call c =>
      rcases ih (Step.note journal (.call c)) with hdone | ⟨before, rest, rfl, hstop⟩
      · exact Or.inl hdone
      · exact Or.inr ⟨.call c :: before, rest, rfl, hstop⟩
    | look =>
      by_cases hflag : flag journal
      · exact Or.inr ⟨[], steps, rfl, by rw [execute, if_pos hflag]; rfl⟩
      · rcases ih (Step.note journal .look) with hdone | ⟨before, rest, rfl, hstop⟩
        · exact Or.inl (by rw [execute, if_neg hflag]; exact hdone)
        · exact Or.inr ⟨.look :: before, rest, rfl, by rw [execute, if_neg hflag]; exact hstop⟩

theorem events_execute (steps : List Step) (journal : Journal) :
    (execute flag steps journal).2.events = journal.events := by
  rcases execute_cases flag steps journal with hdone | ⟨before, rest, -, hstop⟩
  · rw [hdone]
    exact journal.events_after steps
  · rw [hstop]
    exact journal.events_after before

/-- A flag that stays down stops nothing. -/
theorem execute_never (steps : List Step) (journal : Journal) :
    execute .never steps journal = (true, journal.after steps) := by
  induction steps generalizing journal with
  | nil => rfl
  | cons step steps ih =>
    cases step <;> exact ih _

/-! ### The schedule of a block -/

/-- The look that is due before a round, if one is. -/
def lookBefore (round : Nat) : List Step := if round % pollInterval = 0 then [.look] else []

variable (prf : Prf)

/-- The steps of a round after the first: a call for the link of the round before. -/
def roundSteps (password : Bytes) (pieces : List Bytes) (round : Nat) : List Step :=
  lookBefore round ++ [.call ⟨password, (prf.link password pieces (round - 2)).toList⟩]

/-- **The schedule of the block numbered `index`**: a look, a call for the first message,
and the steps of all further rounds. -/
def blockSteps (request : Request) (index : UInt32) : List Step :=
  .look :: .call ⟨request.password, (firstPieces request.salt index).flatten⟩ ::
    (List.range' 2 (request.rounds.toNat - 1)).flatMap
      (roundSteps prf request.password (firstPieces request.salt index))

/-- **The schedule of a derivation** of `n` bytes: those of its blocks. -/
def schedule (request : Request) (n : Nat) : List Step :=
  (Segment.plan prf.width n).flatMap fun segment => blockSteps prf request segment.index

end KeyDerivation
