import KeyDerivation.Derivation.Operation
import KeyDerivation.Proofs.Derivation.Key

/-!
# What the check decides

Every way of deriving a key begins with the same check, and some begin with it twice. This
file says once what the check does to each of them:

* a request that breaks a limit is turned down, and nothing else happens: one event is logged,
  and a buffer is left as it is (`KeyDerivation.deriveCancellable_of_fault`);
* a request within the limits passes without a trace, so that checking it twice is checking it
  once (`KeyDerivation.deriveKey_eq_deriveFresh`);
* parameters are made of exactly the pairs that pass (`KeyDerivation.Parameters.make_of_none`).

A verification derives in a new buffer and compares, whatever the check says
(`KeyDerivation.verify_apply`).
-/

namespace KeyDerivation

/-- The journal after an event. -/
def Journal.logged (journal : Journal) (event : Event) : Journal :=
  { journal with events := journal.events.push event }

theorem Journal.toList_events_logged (journal : Journal) (event : Event) :
    (journal.logged event).events.toList = journal.events.toList ++ [event] :=
  Array.toList_push

section Check

variable {width : Nat} {rounds : UInt32} {n : Nat} {fault : LimitFault}

theorem checkLimits_of_fault (h : limitFault? width rounds n = some fault) :
    checkLimits width rounds n = reject fault := by
  rw [checkLimits, h]

theorem checkLimits_of_none (h : limitFault? width rounds n = none) :
    checkLimits width rounds n = pure (.ok ()) := by
  rw [checkLimits, h]

theorem checkLimits_eq_ok_iff {journal : Journal} :
    (checkLimits width rounds n journal).1 = .ok () ↔ limitFault? width rounds n = none := by
  refine ⟨limitFault?_eq_none_of_checkLimits, fun h => ?_⟩
  rw [checkLimits_of_none h]
  rfl

namespace Parameters

theorem make_of_fault (h : limitFault? width rounds n = some fault) :
    make width rounds n = reject fault := by
  unfold make
  split
  next fault' h' =>
    rw [h] at h'
    rw [Option.some.inj h']
  next h' => exact absurd (h.symm.trans h') nofun

/-- **Parameters are made of the pair that was checked.** -/
theorem make_of_none (h : limitFault? width rounds n = none) :
    make width rounds n = pure (.ok ⟨rounds, n, (limits_of_limitFault?_eq_none h).1,
      (limits_of_limitFault?_eq_none h).2.1⟩) := by
  unfold make
  split
  next fault' h' => exact absurd (h.symm.trans h') nofun
  next => rfl

end Parameters

end Check

/-! ### Deriving -/

section Derive

variable {n : Nat} {prf : BlockPrf} {request : Request} {fault : LimitFault}

/-- **A request that breaks a limit is turned down**, and the buffer is left as it is. -/
theorem deriveCancellable_of_fault (flag : CancelFlag)
    (h : limitFault? prf.width request.rounds n = some fault) (buffer : Buffer n)
    (journal : Journal) :
    deriveCancellable prf flag request buffer journal =
      (⟨.error (.limit fault), buffer⟩, journal.logged (.rejected fault)) := by
  rw [deriveCancellable, checkLimits_of_fault h]
  rfl

theorem derive_of_fault (h : limitFault? prf.width request.rounds n = some fault)
    (buffer : Buffer n) (journal : Journal) :
    derive prf request buffer journal =
      (⟨.error (.limit fault), buffer⟩, journal.logged (.rejected fault)) :=
  deriveCancellable_of_fault .never h buffer journal

/-- A derivation into a new buffer is one into a buffer of zeros. -/
theorem deriveFresh_apply (prf : BlockPrf) (request : Request) (n : Nat) (journal : Journal) :
    deriveFresh prf request n journal =
      let run := derive prf request (Buffer.zeros n) journal
      (run.1.status.map fun _ => run.1.buffer, run.2) := rfl

/-- **Checking twice is checking once.** -/
theorem deriveKey_eq_deriveFresh (prf : BlockPrf) (request : Request) (n : Nat) :
    deriveKey prf request n = deriveFresh prf request n := by
  funext journal
  cases h : limitFault? prf.width request.rounds n with
  | some fault =>
    -- The first check turns the request down here, the second one there.
    rw [deriveFresh_apply, derive_of_fault h, deriveKey, checkLimits_of_fault h]
    rfl
  | none =>
    rw [deriveKey, checkLimits_of_none h]
    rfl

/-- **A verification** derives a key in a new buffer and compares it with the expected one. A
difference is logged. -/
theorem verify_apply (prf : BlockPrf) (expected : Bytes) (request : Request)
    (journal : Journal) :
    verify prf expected request journal =
      match deriveFresh prf request expected.length journal with
      | (.error e, final) => (.error e, final)
      | (.ok key, final) =>
        if key.toList = expected then (.ok (), final)
        else (.error .mismatch, final.logged .mismatched) := by
  rw [verify, deriveKey_eq_deriveFresh, bind_apply]
  rcases deriveFresh prf request expected.length journal with ⟨e | key, final⟩
  · rfl
  · by_cases h : key.toList = expected
    · simp only [if_pos h]
      rfl
    · simp only [if_neg h]
      rfl

/-- After its derivation, a verification calls nothing any more. -/
theorem calls_verify (prf : BlockPrf) (expected : Bytes) (request : Request)
    (journal : Journal) :
    (verify prf expected request journal).2.calls =
      (deriveFresh prf request expected.length journal).2.calls := by
  rw [verify_apply]
  rcases deriveFresh prf request expected.length journal with ⟨e | key, final⟩
  · rfl
  · dsimp only
    split <;> rfl

end Derive

end KeyDerivation
