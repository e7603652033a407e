import KeyDerivation.Proofs.Derivation.Ending

/-!
# Rejected requests change nothing, and only they are rejected

A request is turned down for the first limit that it breaks, and for no other reason
(`KeyDerivation.Operation.status_eq_limit_iff`), and turning it down is logged and has no other
effect (`KeyDerivation.Operation.run_of_fault`). Both are read off the ways in which an
operation can end, and hold of all operations alike.

The limits themselves are the three of `KeyDerivation.limitFault?_of_le`. They are numbers of
any size here, so that the bound on the length of a key can be stated although no buffer
reaches it.
-/

namespace KeyDerivation

/-! ### The limits -/

section Limits

variable {width : Nat} {rounds : UInt32} {n : Nat}

/-- **The limits in numbers.** The product that bounds the length is the true one for every
width up to `2 ^ 32 + 1`. -/
theorem limitFault?_of_le (hwidth : width ≤ 2 ^ 32 + 1) :
    limitFault? width rounds n =
      if rounds = 0 then some .zeroRounds
      else if n = 0 then some .emptyKey
      else if (2 ^ 32 - 1) * width < n then some (.keyTooLong n ((2 ^ 32 - 1) * width))
      else none := by
  rw [limitFault?, toNat_maxKeyLength hwidth]
  rfl

theorem limitFault?_eq_zeroRounds :
    limitFault? width rounds n = some .zeroRounds ↔ rounds = 0 := by
  unfold limitFault?
  grind

theorem limitFault?_eq_emptyKey :
    limitFault? width rounds n = some .emptyKey ↔ rounds ≠ 0 ∧ n = 0 := by
  unfold limitFault?
  grind

theorem limitFault?_eq_keyTooLong (hwidth : width ≤ 2 ^ 32 + 1) {requested max : Nat} :
    limitFault? width rounds n = some (.keyTooLong requested max) ↔
      (rounds ≠ 0 ∧ (2 ^ 32 - 1) * width < n) ∧ requested = n ∧ max = (2 ^ 32 - 1) * width := by
  rw [limitFault?_of_le hwidth]
  grind

theorem limitFault?_eq_none_iff (hwidth : width ≤ 2 ^ 32 + 1) :
    limitFault? width rounds n = none ↔
      ¬(rounds = 0 ∨ n = 0 ∨ (2 ^ 32 - 1) * width < n) := by
  rw [limitFault?_of_le hwidth]
  grind

end Limits

namespace Operation

/-! ### What a rejection means -/

section Rejected

variable {operation : Operation} (hlength : operation.profile.lengthError? = none)
  (journal : Journal)

include hlength

/-- **A broken limit is reported and logged**, and that is all. -/
theorem run_of_fault {fault : LimitFault} (hfault : operation.profile.fault? = some fault) :
    operation.run journal =
      (⟨.error (.limit fault), operation.profile.buffer⟩, journal.logged (.rejected fault)) := by
  -- The endings say what the run is, so that it has to be a variable before they are told apart.
  generalize hrun : operation.run journal = answered
  cases hrun ▸ operation.ending_run journal with
  | refused error hwrong => exact absurd (hlength.symm.trans hwrong) nofun
  | rejected fault' _ hfault' => rw [Option.some.inj (hfault.symm.trans hfault')]
  | passed _ hnone _ => exact absurd (hfault.symm.trans hnone) nofun
  | derived _ _ _ hnone _ _ _ => exact absurd (hfault.symm.trans hnone) nofun

/-- **Within the limits an operation ends well**, or with an error of its own. -/
theorem status_of_none (hfault : operation.profile.fault? = none) :
    (operation.run journal).1.status = .ok () ∨
      ∃ error, operation.profile.ownError? = some error ∧
        (operation.run journal).1.status = .error error := by
  generalize hrun : operation.run journal = answered
  cases hrun ▸ operation.ending_run journal with
  | refused error hwrong => exact absurd (hlength.symm.trans hwrong) nofun
  | rejected fault _ hsome => exact absurd (hfault.symm.trans hsome) nofun
  | passed _ _ _ => exact Or.inl rfl
  | derived _ _ _ _ _ hstatus _ => exact hstatus

/-- **An operation is rejected for the first limit that it breaks**, and for nothing else. -/
theorem status_eq_limit_iff (fault : LimitFault) :
    (operation.run journal).1.status = .error (.limit fault) ↔
      operation.profile.fault? = some fault := by
  constructor
  · intro hlimit
    cases hfault : operation.profile.fault? with
    | some fault' =>
      rw [run_of_fault hlength journal hfault, Except.error.injEq, KdfError.limit.injEq] at hlimit
      rw [hlimit]
    | none =>
      rcases status_of_none hlength journal hfault with hok | ⟨error, hown, herror⟩
      · exact absurd (hok.symm.trans hlimit) nofun
      · rw [herror, Except.error.injEq] at hlimit
        rcases eq_of_ownError? hown with rfl | rfl <;> exact absurd hlimit nofun
  · intro hfault
    rw [run_of_fault hlength journal hfault]

end Rejected

/-- **Rejected requests change nothing, and only they are rejected.**

Whatever the operation, it is turned down for no rounds, for a key of no bytes or for a key
longer than `2 ^ 32 - 1` blocks, in this order, and the last of these errors carries both
lengths. Then the caller's buffer is as it was, nothing was called, and nobody has looked at
the flag, even if it was raised all along. A request that breaks no limit ends well, unless
it is cancelled or a key is not the expected one. -/
theorem rejected_iff_breaks_limit (operation : Operation)
    (hlength : operation.profile.lengthError? = none)
    (hwidth : operation.profile.width ≤ 2 ^ 32 + 1) (journal : Journal) :
    let rounds := operation.profile.rounds
    let n := operation.profile.keyLength
    let max := (2 ^ 32 - 1) * operation.profile.width
    let run := operation.run journal
    (run.1.status = .error (.limit .zeroRounds) ↔ rounds = 0) ∧
    (run.1.status = .error (.limit .emptyKey) ↔ rounds ≠ 0 ∧ n = 0) ∧
    (∀ requested bound, run.1.status = .error (.limit (.keyTooLong requested bound)) ↔
      (rounds ≠ 0 ∧ max < n) ∧ requested = n ∧ bound = max) ∧
    (rounds = 0 ∨ n = 0 ∨ max < n →
      run.1.buffer = operation.profile.buffer ∧
        run.2.calls = journal.calls ∧ run.2.polls = journal.polls) ∧
    (¬(rounds = 0 ∨ n = 0 ∨ max < n) →
      run.1.status = .ok () ∨
        ∃ error, operation.profile.ownError? = some error ∧ run.1.status = .error error) := by
  intro rounds n max run
  have hstatus := status_eq_limit_iff hlength journal
  have hnone : operation.profile.fault? = none ↔ ¬(rounds = 0 ∨ n = 0 ∨ max < n) :=
    limitFault?_eq_none_iff hwidth
  refine ⟨(hstatus _).trans limitFault?_eq_zeroRounds, (hstatus _).trans limitFault?_eq_emptyKey,
    fun requested bound => (hstatus _).trans (limitFault?_eq_keyTooLong hwidth), fun hbroken => ?_,
    fun hwithin => status_of_none hlength journal (hnone.mpr hwithin)⟩
  obtain ⟨fault, hfault⟩ := Option.ne_none_iff_exists'.mp fun hcon => hnone.mp hcon hbroken
  have hrun : run = _ := run_of_fault hlength journal hfault
  rw [hrun]
  exact ⟨rfl, rfl, rfl⟩

/-- No rounds, with a flag that is raised all along, and a buffer that is not zero. -/
theorem rejected_iff_breaks_limit_raised_flag :
    let operation : Operation := .deriveCancellable checksumPrf (.constant true)
      ⟨[0x70, 0x77], [0x73, 0x61, 0x6c, 0x74], 0⟩ 20 (Vector.replicate 20 0xaa)
    let run := operation.run .empty
    (operation.profile.lengthError? = none ∧ operation.profile.width ≤ 2 ^ 32 + 1) ∧
    (run.1.status = .error (.limit .zeroRounds) ↔ (0 : UInt32) = 0) ∧
    (run.1.status = .error (.limit .emptyKey) ↔ (0 : UInt32) ≠ 0 ∧ 20 = 0) ∧
    (∀ requested bound, run.1.status = .error (.limit (.keyTooLong requested bound)) ↔
      ((0 : UInt32) ≠ 0 ∧ (2 ^ 32 - 1) * 8 < 20) ∧ requested = 20 ∧ bound = (2 ^ 32 - 1) * 8) ∧
    ((0 : UInt32) = 0 ∨ 20 = 0 ∨ (2 ^ 32 - 1) * 8 < 20 →
      run.1.buffer = some (List.replicate 20 0xaa) ∧ run.2.calls = #[] ∧ run.2.polls = #[]) ∧
    (¬((0 : UInt32) = 0 ∨ 20 = 0 ∨ (2 ^ 32 - 1) * 8 < 20) →
      run.1.status = .ok () ∨
        ∃ error, operation.profile.ownError? = some error ∧ run.1.status = .error error) :=
  have hwidth : checksumPrf.width ≤ 2 ^ 32 + 1 := by decide
  ⟨⟨rfl, hwidth⟩, rejected_iff_breaks_limit (.deriveCancellable checksumPrf (.constant true)
    ⟨[0x70, 0x77], [0x73, 0x61, 0x6c, 0x74], 0⟩ 20 (Vector.replicate 20 0xaa)) rfl hwidth .empty⟩

end Operation

end KeyDerivation
