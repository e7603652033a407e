import KeyDerivation.Fnv
import KeyDerivation.Proofs.Derivation.Key

/-!
# Cancellation is all or nothing

A cancellation flag may be raised at any moment, and lowered again before anybody has
looked. Whatever it does, a derivation within the limits ends in one of two ways:

* every look found the flag down, and the buffer holds the key;
* the last look, and no look before it, found the flag raised. Nothing is called after
  it, and the buffer is zero from end to end.

A look is noted with the number of calls finished by then, so that nothing is called
after the last look shows in the journal: the number noted is the number in the end.
-/

namespace KeyDerivation

variable {n : Nat}

/-- The looks of a derivation found the flag down, all of them. -/
def Journal.LooksDown (journal final : Journal) : Prop :=
  ∃ quiet : Array Poll, final.polls = journal.polls ++ quiet ∧
    ∀ poll ∈ quiet, poll.answer = false

/-- The looks of a derivation found the flag down until the last one, which found it
raised; no call was finished after it. -/
def Journal.LastLookRaised (journal final : Journal) : Prop :=
  ∃ quiet : Array Poll, final.polls = (journal.polls ++ quiet).push ⟨final.calls.size, true⟩ ∧
    ∀ poll ∈ quiet, poll.answer = false

/-- What the looks found shows in the journal: they were not all down if the last one was
not. -/
theorem Journal.LooksDown.not_lastLookRaised {journal final : Journal}
    (hdown : journal.LooksDown final) : ¬journal.LastLookRaised final := by
  obtain ⟨quiet, hpolls, hquiet⟩ := hdown
  rintro ⟨quiet', hpolls', -⟩
  have hlast : quiet = quiet'.push ⟨final.calls.size, true⟩ := by
    rw [hpolls, ← Array.append_push] at hpolls'
    exact Array.append_right_inj _ |>.mp hpolls'
  rw [hlast] at hquiet
  exact absurd (hquiet _ Array.mem_push_self) nofun

/-- **A derivation that may be cancelled, on a buffer within the limits**: it ends with the
key and no look that found the flag raised, or with zeros right after the first such
look. -/
theorem deriveCancellable_cases (prf : BlockPrf) (flag : CancelFlag) (request : Request)
    (hlimits : limitFault? prf.width request.rounds n = none) (buffer : Buffer n)
    (journal : Journal) :
    let run := deriveCancellable prf flag request buffer journal
    (run.1 = ⟨.ok (), written prf request (Segment.plan prf.width n) buffer⟩ ∧
      journal.LooksDown run.2) ∨
    (run.1 = ⟨.error .cancelled, .zeros n⟩ ∧ journal.LastLookRaised run.2) := by
  rw [deriveCancellable_apply prf flag request hlimits]
  rcases execute_cases flag (schedule prf.toPrf request n) (journal.begun request prf.width n) with
    hdone | ⟨before, rest, -, hstop⟩
  · rw [hdone]
    exact Or.inl ⟨rfl, Journal.polls_after (journal.begun request prf.width n) _⟩
  · rw [hstop]
    obtain ⟨quiet, hpolls, hquiet⟩ := Journal.polls_after (journal.begun request prf.width n) before
    refine Or.inr ⟨rfl, quiet, ?_, hquiet⟩
    change ((journal.begun request prf.width n).after before).stopped.polls = _
    rw [Journal.stopped, hpolls]
    rfl

/-- **Cancellation is all or nothing**, whatever the flag answers and whenever: a derivation
that is accepted ends as it would without a flag, every look having found it down, or it
ends right after the first look that found it raised, with a buffer of zeros. On a
stretch of a larger buffer it does the same, and the bytes around the stretch stay. -/
theorem cancellation_all_or_nothing (prf : BlockPrf) (flag : CancelFlag) (request : Request)
    (journal : Journal)
    (haccepted : (checkLimits prf.width request.rounds n journal).1 = .ok ()) :
    (∀ buffer : Buffer n,
      let run := deriveCancellable prf flag request buffer journal
      (run.1.status = .ok () ∧ journal.LooksDown run.2 ∧
        ∀ journal', (derive prf request buffer journal').1 = run.1) ∨
      (run.1.status = .error .cancelled ∧ journal.LastLookRaised run.2 ∧
        run.1.buffer = .zeros n)) ∧
    ∀ (m : Nat) (outer : Buffer m) (offset : Nat) (inside : offset + n ≤ m),
      let part := deriveCancellable prf flag request (outer.stretch offset n inside) journal
      let whole := deriveWithin prf flag request outer offset n inside journal
      whole.1.status = part.1.status ∧ whole.2 = part.2 ∧
        whole.1.buffer.toList = outer.toList.take offset ++ part.1.buffer.toList ++
          outer.toList.drop (offset + n) := by
  have hlimits := limitFault?_eq_none_of_checkLimits haccepted
  constructor
  · intro buffer
    rcases deriveCancellable_cases prf flag request hlimits buffer journal with
      ⟨hrun, hdown⟩ | ⟨hrun, hraised⟩
    · refine Or.inl ⟨by rw [hrun], hdown, ?_⟩
      intro journal'
      rw [derive_apply hlimits, hrun]
    · exact Or.inr ⟨by rw [hrun], hraised, by rw [hrun]⟩
  · intro m outer offset inside
    rw [deriveWithin_apply]
    exact ⟨rfl, rfl, Buffer.toList_splice outer offset _ inside⟩

/-- The checksum over three blocks, with a flag that only the second look finds raised. -/
theorem cancellation_all_or_nothing_second_look :
    let flag : CancelFlag := fun journal => journal.polls.size == 1
    let request : Request := ⟨[0x70, 0x77], [0x73, 0x61, 0x6c, 0x74], 2⟩
    (checkLimits checksumPrf.width request.rounds 20 .empty).1 = .ok () ∧
    (∀ buffer : Buffer 20,
      let run := deriveCancellable checksumPrf flag request buffer .empty
      (run.1.status = .ok () ∧ Journal.empty.LooksDown run.2 ∧
        ∀ journal', (derive checksumPrf request buffer journal').1 = run.1) ∨
      (run.1.status = .error .cancelled ∧ Journal.empty.LastLookRaised run.2 ∧
        run.1.buffer = .zeros 20)) ∧
    ∀ (m : Nat) (outer : Buffer m) (offset : Nat) (inside : offset + 20 ≤ m),
      let part := deriveCancellable checksumPrf flag request (outer.stretch offset 20 inside) .empty
      let whole := deriveWithin checksumPrf flag request outer offset 20 inside .empty
      whole.1.status = part.1.status ∧ whole.2 = part.2 ∧
        whole.1.buffer.toList = outer.toList.take offset ++ part.1.buffer.toList ++
          outer.toList.drop (offset + 20) :=
  have haccepted : (checkLimits checksumPrf.width 2 20 .empty).1 = .ok () := rfl
  ⟨haccepted, cancellation_all_or_nothing checksumPrf (fun journal => journal.polls.size == 1)
    ⟨[0x70, 0x77], [0x73, 0x61, 0x6c, 0x74], 2⟩ .empty haccepted⟩

end KeyDerivation
