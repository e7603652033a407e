import KeyDerivation.Proofs.Derivation.Ending

/-!
# What is logged is no secret

An event has no place for a key, a salt or an output. That alone would not keep a secret: which
events are logged, and how many, could depend on one. It does not. The events of an operation
follow from its width, its rounds, the length of its key, whether it derives one, and from
the status that it is answered with (`KeyDerivation.Operation.log_eq_expectedLog`). So two
operations that agree in these log the same, whatever else is different between them.

A request that is checked twice is not turned down twice, and the second check of one that is
within the limits does not show either.
-/

namespace KeyDerivation

namespace Operation

/-- **The events of an operation**: what it adds to those of the journal. -/
def log (operation : Operation) (journal : Journal) : List Event :=
  (operation.run journal).2.events.toList.drop journal.events.size

/-- The events that belong to a status follow from the numbers of the profile. -/
theorem Profile.expectedLog_congr {profile profile' : Profile}
    (hderives : profile.derives = profile'.derives) (hwidth : profile.width = profile'.width)
    (hrounds : profile.rounds = profile'.rounds)
    (hlength : profile.keyLength = profile'.keyLength) (status : Except KdfError Unit) :
    profile.expectedLog status = profile'.expectedLog status := by
  have hstarted : profile.started = profile'.started := by
    rw [started, started, hwidth, hrounds, hlength]
  unfold expectedLog
  rw [hstarted, hderives]

/-- All that is logged apart from the announcement is for debugging. -/
theorem Profile.level_of_mem_expectedLog {profile : Profile} {status : Except KdfError Unit}
    {event : Event} (hevent : event ∈ profile.expectedLog status)
    (hother : event ≠ profile.started) : event.level = .debug := by
  match status with
  | .ok () =>
    have hstarted : event ∈ [profile.started] := by
      rw [expectedLog] at hevent
      split at hevent
      · exact hevent
      · exact absurd hevent List.not_mem_nil
    exact absurd (List.mem_singleton.mp hstarted) hother
  | .error (.limit fault) =>
    rw [List.mem_singleton.mp hevent]
    rfl
  | .error (.lengthMismatch _ _) => exact absurd hevent List.not_mem_nil
  | .error .cancelled | .error .mismatch =>
    -- The announcement is the first of two events, and the other one is for debugging.
    rw [List.mem_singleton.mp (List.mem_of_ne_of_mem hother hevent)]
    rfl

/-- **The events of an operation are those that belong to its status**, behind the ones that
were there before. -/
theorem events_run (operation : Operation) (journal : Journal) :
    (operation.run journal).2.events.toList = journal.events.toList ++
      operation.profile.expectedLog (operation.run journal).1.status := by
  generalize hrun : operation.run journal = answered
  cases hrun ▸ operation.ending_run journal with
  | refused error hlength =>
    obtain ⟨expected, actual, rfl⟩ := eq_of_lengthError? hlength
    exact (List.append_nil _).symm
  | rejected fault _ _ => exact journal.toList_events_logged (.rejected fault)
  | passed _ _ hderives =>
    rw [Profile.expectedLog, hderives]
    exact (List.append_nil _).symm
  | derived _ _ _ _ _ _ hevents => exact hevents

theorem log_eq_expectedLog (operation : Operation) (journal : Journal) :
    operation.log journal =
      operation.profile.expectedLog (operation.run journal).1.status := by
  rw [log, events_run]
  exact List.drop_left' Array.length_toList

/-- **What is logged is exact, and no secret.**

Turning a request down is one event, however often the request is checked. A check that is
passed and a buffer of the wrong length are none. A derivation that begins is announced with
four numbers, and it is logged besides if it was cancelled or a key was not the expected one.
Only the announcement is traced, everything else is for debugging.

Hence two operations of one kind, on whatever passwords, salts, buffers and expected keys and
with whatever pseudorandom functions, log the same if they agree in the width, the rounds, the
length of the key, and the status. -/
theorem log_determined_by_status (operation : Operation) (journal : Journal) :
    let asked := operation.profile
    let blocks := (asked.keyLength + asked.width - 1) / asked.width
    let started : Event := .started asked.rounds.toNat asked.keyLength asked.width blocks
    let run := operation.run journal
    let log := operation.log journal
    run.2.events.toList = journal.events.toList ++ log ∧
    log = (match run.1.status with
      | .ok () => if asked.derives then [started] else []
      | .error (.limit fault) => [.rejected fault]
      | .error (.lengthMismatch _ _) => []
      | .error .cancelled => [started, .cancelled]
      | .error .mismatch => [started, .mismatched]) ∧
    (started.level = .trace ∧
      started.fields = [("rounds", asked.rounds.toNat), ("dk_len", asked.keyLength),
        ("h_len", asked.width), ("blocks", blocks)] ∧
      ∀ event ∈ log, event ≠ started → event.level = .debug) ∧
    ∀ (other : Operation) (journal' : Journal), other.profile.derives = asked.derives →
      other.profile.width = asked.width → other.profile.rounds = asked.rounds →
      other.profile.keyLength = asked.keyLength →
      (other.run journal').1.status = run.1.status → other.log journal' = log := by
  intro asked blocks started run log
  have hlog : log = asked.expectedLog run.1.status := operation.log_eq_expectedLog journal
  refine ⟨?_, hlog, ⟨rfl, rfl, fun event hevent hother => ?_⟩, ?_⟩
  · rw [hlog]
    exact operation.events_run journal
  · rw [hlog] at hevent
    exact Profile.level_of_mem_expectedLog hevent hother
  · intro other journal' hderives hwidth hrounds hlength hstatus
    rw [hlog, other.log_eq_expectedLog, hstatus]
    exact Profile.expectedLog_congr hderives hwidth hrounds hlength run.1.status

/-- Two derivations that are cancelled, one before its first block and the other before its
second one, log the same. -/
theorem log_determined_by_status_cancelled :
    let operation : Operation := .deriveCancellable checksumPrf (.constant true)
      ⟨[0x70, 0x77], [0x73, 0x61, 0x6c, 0x74], 2⟩ 20 (.zeros 20)
    let other : Operation := .deriveCancellable checksumPrf
      (fun journal => journal.polls.size == 1) ⟨[0x61], [], 2⟩ 20 (Vector.replicate 20 0xaa)
    (other.profile.derives = operation.profile.derives ∧
      other.profile.width = operation.profile.width ∧
      other.profile.rounds = operation.profile.rounds ∧
      other.profile.keyLength = operation.profile.keyLength ∧
      (other.run .empty).1.status = (operation.run .empty).1.status) ∧
    other.log .empty = operation.log .empty :=
  have hstatus : ((Operation.deriveCancellable checksumPrf
      (fun journal => journal.polls.size == 1) ⟨[0x61], [], 2⟩ 20
        (Vector.replicate 20 0xaa)).run .empty).1.status =
      ((Operation.deriveCancellable checksumPrf (.constant true)
        ⟨[0x70, 0x77], [0x73, 0x61, 0x6c, 0x74], 2⟩ 20 (.zeros 20)).run .empty).1.status := rfl
  ⟨⟨rfl, rfl, rfl, rfl, hstatus⟩, (log_determined_by_status (.deriveCancellable checksumPrf
    (.constant true) ⟨[0x70, 0x77], [0x73, 0x61, 0x6c, 0x74], 2⟩ 20 (.zeros 20)) .empty).2.2.2
      _ .empty rfl rfl rfl rfl hstatus⟩

end Operation

end KeyDerivation
