import KeyDerivation.Proofs.Derivation.Cancellation
import KeyDerivation.Proofs.Derivation.Check

/-!
# How an operation ends

There are four ways in which an operation can end: its buffer has the wrong length, its request
breaks a limit, the check is passed and that was all, or the check is passed and a derivation
begins. `KeyDerivation.Operation.Ending` lists them, each with what it does to the caller's
buffer and to the journal, and `KeyDerivation.Operation.ending_run` says that every operation
ends in one of them.

What is to be said of all operations is read off this list. An operation that is added to the
library has to be shown to keep to it, and no more.
-/

namespace KeyDerivation

namespace Operation

namespace Profile

variable (profile : Profile)

/-- **The first limit that is broken**, if one is. -/
def fault? : Option LimitFault := limitFault? profile.width profile.rounds profile.keyLength

/-- The event with which a derivation announces itself. -/
def started : Event :=
  .started profile.rounds.toNat profile.keyLength profile.width
    (Segment.count profile.width profile.keyLength)

/-- The events that belong to a status. -/
def expectedLog : Except KdfError Unit → List Event
  | .ok () => if profile.derives then [profile.started] else []
  | .error (.limit fault) => [.rejected fault]
  | .error (.lengthMismatch _ _) => []
  | .error .cancelled => [profile.started, .cancelled]
  | .error .mismatch => [profile.started, .mismatched]

end Profile

/-- **The ways in which an operation can end**, each with the answer and the journal after
it. -/
inductive Ending (profile : Profile) (journal : Journal) : Reply × Journal → Prop
  /-- The buffer has the wrong length. Nothing happens. -/
  | refused (error : KdfError) (hlength : profile.lengthError? = some error) :
    Ending profile journal (⟨.error error, profile.buffer⟩, journal)
  /-- A limit is broken. This is logged, and nothing else happens. -/
  | rejected (fault : LimitFault) (hlength : profile.lengthError? = none)
      (hfault : profile.fault? = some fault) :
    Ending profile journal
      (⟨.error (.limit fault), profile.buffer⟩, journal.logged (.rejected fault))
  /-- The check is passed, and there is nothing more to do. -/
  | passed (hlength : profile.lengthError? = none) (hfault : profile.fault? = none)
      (hderives : profile.derives = false) :
    Ending profile journal (⟨.ok (), profile.buffer⟩, journal)
  /-- The check is passed, and a derivation has begun. Whatever else it does, it ends well or
  with an error of its own, and logs what belongs to that. -/
  | derived (reply : Reply) (final : Journal) (hlength : profile.lengthError? = none)
      (hfault : profile.fault? = none) (hderives : profile.derives = true)
      (hstatus : reply.status = .ok () ∨
        ∃ error, profile.ownError? = some error ∧ reply.status = .error error)
      (hevents : final.events.toList =
        journal.events.toList ++ profile.expectedLog reply.status) :
    Ending profile journal (reply, final)

/-! ### Errors that are not about limits -/

/-- An operation that has an error of its own can be cancelled, or compares keys. -/
theorem eq_of_ownError? {operation : Operation} {error : KdfError}
    (h : operation.profile.ownError? = some error) : error = .cancelled ∨ error = .mismatch := by
  cases operation with
  | deriveCancellable => exact Or.inl (Option.some.inj h).symm
  | verify => exact Or.inr (Option.some.inj h).symm
  | _ => exact absurd h nofun

/-- Only a buffer of the wrong length is refused for its length. -/
theorem eq_of_lengthError? {operation : Operation} {error : KdfError}
    (h : operation.profile.lengthError? = some error) :
    ∃ expected actual, error = .lengthMismatch expected actual := by
  cases operation with
  | deriveAs parameters prf password salt n buffer =>
    by_cases hn : n = parameters.keyLength
    · exact absurd ((if_pos hn).symm.trans h) nofun
    · exact ⟨parameters.keyLength, n, (Option.some.inj ((if_neg hn).symm.trans h)).symm⟩
  | _ => exact absurd h nofun

/-! ### The operations one by one -/

section Endings

variable {n : Nat} (prf : BlockPrf) (request : Request) (journal : Journal)

theorem ending_check (width : Nat) (rounds : UInt32) (n : Nat) :
    Ending (profile (.check width rounds n)) journal (run (.check width rounds n) journal) := by
  rw [run, map_apply]
  cases h : limitFault? width rounds n with
  | some fault =>
    rw [checkLimits_of_fault h]
    exact .rejected fault rfl h
  | none =>
    rw [checkLimits_of_none h]
    exact .passed rfl h rfl

theorem ending_makeParameters (width : Nat) (rounds : UInt32) (n : Nat) :
    Ending (profile (.makeParameters width rounds n)) journal
      (run (.makeParameters width rounds n) journal) := by
  rw [run, map_apply]
  cases h : limitFault? width rounds n with
  | some fault =>
    rw [Parameters.make_of_fault h]
    exact .rejected fault rfl h
  | none =>
    rw [Parameters.make_of_none h]
    exact .passed rfl h rfl

/-- **What a derivation within the limits logs**: that it begins, and whether it was
cancelled. -/
theorem events_deriveCancellable (flag : CancelFlag)
    (h : limitFault? prf.width request.rounds n = none) (buffer : Buffer n) :
    let run := KeyDerivation.deriveCancellable prf flag request buffer journal
    run.2.events.toList =
      journal.events.toList ++ (Profile.new prf request n).expectedLog run.1.status := by
  -- The schedule adds calls and looks only, so that the announcement is still the last event
  -- when it ends.
  have hevents : (execute flag (schedule prf.toPrf request n)
      (journal.begun request prf.width n)).2.events.toList =
        journal.events.toList ++ [(Profile.new prf request n).started] := by
    rw [events_execute]
    exact Array.toList_push
  rw [deriveCancellable_apply prf flag request h]
  by_cases hdone : (execute flag (schedule prf.toPrf request n)
      (journal.begun request prf.width n)).1 = true
  · simp only [if_pos hdone]
    exact hevents
  · simp only [if_neg hdone]
    refine (Journal.toList_events_logged _ _).trans ?_
    rw [hevents, List.append_assoc]
    rfl

theorem ending_deriveCancellable (flag : CancelFlag) (buffer : Buffer n) :
    Ending (profile (.deriveCancellable prf flag request n buffer)) journal
      (run (.deriveCancellable prf flag request n buffer) journal) := by
  rw [run, map_apply]
  cases h : limitFault? prf.width request.rounds n with
  | some fault =>
    rw [deriveCancellable_of_fault flag h]
    exact .rejected fault rfl h
  | none =>
    have hevents := events_deriveCancellable prf request journal flag h buffer
    refine .derived _ _ rfl h rfl ?_ hevents
    -- Which of the two it is, is up to the flag.
    rcases deriveCancellable_cases prf flag request h buffer journal with ⟨hrun, -⟩ | ⟨hrun, -⟩
    · rw [hrun]
      exact Or.inl rfl
    · rw [hrun]
      exact Or.inr ⟨.cancelled, rfl, rfl⟩

/-- Without a flag, a derivation within the limits logs only that it begins. -/
theorem events_derive (h : limitFault? prf.width request.rounds n = none) (buffer : Buffer n) :
    (KeyDerivation.derive prf request buffer journal).2.events.toList =
      journal.events.toList ++ [(Profile.new prf request n).started] := by
  have hstatus : (KeyDerivation.derive prf request buffer journal).1.status = .ok () := by
    rw [derive_apply h]
  calc (KeyDerivation.derive prf request buffer journal).2.events.toList
    _ = journal.events.toList ++ (Profile.new prf request n).expectedLog
          (KeyDerivation.derive prf request buffer journal).1.status :=
        events_deriveCancellable prf request journal .never h buffer
    _ = journal.events.toList ++ [(Profile.new prf request n).started] := by
        rw [hstatus]
        rfl

theorem ending_derive (buffer : Buffer n) :
    Ending (.into prf request buffer) journal
      ((Reply.ofOutcome <$> KeyDerivation.derive prf request buffer) journal) := by
  rw [map_apply]
  cases h : limitFault? prf.width request.rounds n with
  | some fault =>
    rw [derive_of_fault h]
    exact .rejected fault rfl h
  | none =>
    have hevents := events_derive prf request journal h buffer
    rw [derive_apply h] at hevents ⊢
    exact .derived _ _ rfl h rfl (Or.inl rfl) hevents

theorem ending_deriveFresh :
    Ending (.new prf request n) journal
      ((Reply.ofResult <$> KeyDerivation.deriveFresh prf request n) journal) := by
  rw [map_apply, deriveFresh_apply]
  cases h : limitFault? prf.width request.rounds n with
  | some fault =>
    rw [derive_of_fault h]
    exact .rejected fault rfl h
  | none =>
    have hevents := events_derive prf request journal h (.zeros n)
    rw [derive_apply h] at hevents ⊢
    exact .derived _ _ rfl h rfl (Or.inl rfl) hevents

theorem ending_verify (expected : Bytes) :
    Ending (profile (.verify prf expected request)) journal
      (run (.verify prf expected request) journal) := by
  rw [run, map_apply, verify_apply, deriveFresh_apply]
  cases h : limitFault? prf.width request.rounds expected.length with
  | some fault =>
    rw [derive_of_fault h]
    exact .rejected fault rfl h
  | none =>
    have hevents := events_derive prf request journal h (.zeros expected.length)
    rw [derive_apply h] at hevents ⊢
    simp only [Except.map]
    split
    · exact .derived _ _ rfl h rfl (Or.inl rfl) hevents
    · refine .derived _ _ rfl h rfl (Or.inr ⟨.mismatch, rfl, rfl⟩) ?_
      refine (Journal.toList_events_logged _ _).trans ?_
      rw [hevents, List.append_assoc]
      rfl

end Endings

/-- **Every operation ends in one of these ways.** -/
theorem ending_run (operation : Operation) (journal : Journal) :
    Ending operation.profile journal (operation.run journal) := by
  cases operation with
  | check width rounds n => exact ending_check journal width rounds n
  | makeParameters width rounds n => exact ending_makeParameters journal width rounds n
  | derive prf request n buffer => exact ending_derive prf request journal buffer
  | deriveCancellable prf flag request n buffer =>
    exact ending_deriveCancellable prf request journal flag buffer
  | deriveHmacSha1 request n buffer => exact ending_derive hmacSha1 request journal buffer
  | deriveHmacSha256 request n buffer => exact ending_derive hmacSha256 request journal buffer
  | deriveHmacSha512 request n buffer => exact ending_derive hmacSha512 request journal buffer
  | deriveFresh prf request n => exact ending_deriveFresh prf request journal
  | deriveKey prf request n =>
    rw [run, deriveKey_eq_deriveFresh]
    exact ending_deriveFresh prf request journal
  | verify prf expected request => exact ending_verify prf request journal expected
  | deriveAs parameters prf password salt n buffer =>
    by_cases hn : n = parameters.keyLength
    -- With a buffer of the right length this is a derivation like any other, whose request is
    -- checked again.
    · rw [run, Parameters.derive, if_pos hn, profile, if_pos hn]
      exact ending_derive prf (parameters.request password salt) journal buffer
    · rw [run, Parameters.derive, if_neg hn]
      exact .refused (.lengthMismatch parameters.keyLength n) (if_neg hn)
  | deriveKeyAs parameters prf password salt =>
    rw [run, Parameters.deriveKey, deriveKey_eq_deriveFresh]
    exact ending_deriveFresh prf (parameters.request password salt) journal

end Operation

end KeyDerivation
