import KeyDerivation.Proofs.Derivation.Calls
import KeyDerivation.Proofs.Derivation.Check
import KeyDerivation.Proofs.Fnv
import KeyDerivation.Recorder
import Mathlib.Data.List.DropRight

/-!
# What the record holds

A session over the record of calls starts contexts of the checksum, and each of them comes to
an end: it is finished into a buffer, or it is dropped. `KeyDerivation.Recorder.Life` is such a
context as seen from outside, and `KeyDerivation.Recorder.lives` says which ones an action has
to do with. A derivation has one for every round of every block, up to the look that finds its
flag raised. None of this mentions the record.

The record holds the calls of those contexts that were finished into a buffer with room for the
output, since the record was last forgotten and in that order
(`KeyDerivation.Recorder.calls_session`). One action adds what its contexts
have to say, or forgets everything (`KeyDerivation.Recorder.calls_perform`); the rest is an
induction on the session from its last action.

The output itself is said with natural numbers, as the checksum is usually described
(`KeyDerivation.Fnv.hash`).
-/

namespace KeyDerivation

namespace Recorder

/-- **The output for a key and a message**: the checksum of both with the byte `0xff` between
them, in eight bytes. -/
def output (key message : Bytes) : Bytes := bigEndian 8 (Fnv.hash (key ++ 0xff :: message))

theorem length_output (key message : Bytes) : (output key message).length = 8 :=
  length_bigEndian _ _

/-- What a buffer holds after the output was written to its front. -/
theorem map_toList_writeFront?_output (key message : Bytes) {n : Nat} (out : Buffer n) :
    (out.writeFront? (output key message)).map Vector.toList =
      if 8 ≤ n then some (output key message ++ out.toList.drop 8) else none := by
  rw [Buffer.map_toList_writeFront?, length_output]

/-- However a message is cut, this is its output. -/
theorem toList_value (key : Bytes) (pieces : List Bytes) :
    (checksumPrf.value key pieces).toList = output key pieces.flatten := by
  rw [toList_value_checksumPrf, Fnv.toNat_checksum]
  rfl

end Recorder

/-! ### How far a schedule goes -/

/-- **How many calls are made** before a look finds the flag raised. -/
def callsMade (flag : CancelFlag) : List Step → Journal → Nat
  | [], _ => 0
  | .call c :: rest, journal => callsMade flag rest (Step.note journal (.call c)) + 1
  | .look :: rest, journal =>
    if flag journal then 0 else callsMade flag rest (Step.note journal .look)

/-- Executing a schedule adds this many of its calls to the record. -/
theorem calls_execute (flag : CancelFlag) (steps : List Step) (journal : Journal) :
    (execute flag steps journal).2.calls.toList =
      journal.calls.toList ++ (callsOf steps).take (callsMade flag steps journal) := by
  induction steps generalizing journal with
  | nil => exact (List.append_nil _).symm
  | cons step steps ih =>
    cases step with
    | call c =>
      refine (ih (Step.note journal (.call c))).trans ?_
      simp [Step.note, callsMade]
    | look =>
      by_cases hflag : flag journal
      · simp [execute, callsMade, hflag, Journal.stopped]
      · rw [execute, callsMade, if_neg hflag, if_neg hflag]
        exact ih (Step.note journal .look)

/-- A flag that stays down lets all calls be made. -/
theorem callsMade_never (steps : List Step) (journal : Journal) :
    callsMade .never steps journal = (callsOf steps).length := by
  induction steps generalizing journal with
  | nil => rfl
  | cons step steps ih =>
    cases step with
    | call c => exact congrArg Nat.succ (ih _)
    | look => exact ih _

/-- A derivation begins with a look, so a flag that is raised by then lets no call be made. -/
theorem callsMade_schedule_of_raised {flag : CancelFlag} {journal : Journal}
    (hraised : flag journal = true) (prf : Prf) (request : Request) (n : Nat) :
    callsMade flag (schedule prf request n) journal = 0 := by
  rw [schedule]
  cases Segment.plan prf.width n with
  | nil => rfl
  | cons segment rest => exact if_pos hraised

namespace Recorder

/-! ### Contexts -/

/-- **What became of a context**: the key it was started with, the pieces it has absorbed, and
the length of the buffer it was finished into, if it was not dropped. -/
structure Life where
  key : Bytes
  pieces : List Bytes
  room : Option Nat

/-- The call that a context is recorded as: its key and all it has absorbed, if it was
finished and there was room for the output. -/
def Life.call? (life : Life) : Option Call :=
  match life.room with
  | some n => if 8 ≤ n then some ⟨life.key, life.pieces.flatten⟩ else none
  | none => none

/-- **The calls that contexts are recorded as**, in the order in which they were finished. -/
def recorded (lives : List Life) : List Call := lives.filterMap Life.call?

theorem recorded_append (lives lives' : List Life) :
    recorded (lives ++ lives') = recorded lives ++ recorded lives' := List.filterMap_append

/-- Contexts that are all recorded are recorded one by one. -/
theorem recorded_take {lives : List Life} {calls : List Call}
    (h : lives.map Life.call? = calls.map some) (k : Nat) :
    recorded (lives.take k) = calls.take k := by
  have hfront : (lives.take k).map Life.call? = (calls.take k).map some := by
    rw [List.map_take, List.map_take, h]
  have hall : recorded (lives.take k) = ((lives.take k).map Life.call?).filterMap id := by
    rw [recorded, List.filterMap_map, Function.id_comp]
  rw [hall, hfront, List.filterMap_map]
  exact List.filterMap_some

/-! ### The contexts of a derivation -/

section Derivation

variable (request : Request)

/-- The outputs for the rounds of a block, counted from zero: the first one is for the salt
and the number of the block, every further one for the output before. -/
def roundOutput (index : Nat) : Nat → Bytes
  | 0 => output request.password (request.salt ++ bigEndian 4 index)
  | j + 1 => output request.password (roundOutput index j)

/-- The context of a round. It is finished into an array of eight bytes. -/
def roundLife (index : Nat) : Nat → Life
  | 0 => ⟨request.password, [request.salt, bigEndian 4 index], some 8⟩
  | j + 1 => ⟨request.password, [roundOutput request index j], some 8⟩

/-- **The contexts of a derivation** of `n` bytes that is not cancelled: one for every round
of every block. -/
def derivationLives (n : Nat) : List Life :=
  (List.range ((n + 7) / 8)).flatMap fun i =>
    (List.range request.rounds.toNat).map (roundLife request (i + 1))

theorem toList_answer_blockCall (index j : Nat) :
    (checksumPrf.toPrf.answer (checksumPrf.blockCall request index j)).toList =
      roundOutput request index j := by
  induction j with
  | zero =>
    refine (toList_value _ _).trans ?_
    simp [Prf.blockCall, roundOutput]
  | succ j ih =>
    refine (toList_value _ _).trans ?_
    simp [Prf.blockCall, roundOutput, ih]

/-- The context of a round is recorded as the call of that round. -/
theorem call?_roundLife (index j : Nat) :
    (roundLife request index j).call? = some (checksumPrf.blockCall request index j) := by
  cases j with
  | zero => simp [roundLife, Life.call?, Prf.blockCall]
  | succ j => simp [roundLife, Life.call?, Prf.blockCall, toList_answer_blockCall]

variable {request} in
/-- **The contexts of a derivation are recorded as the calls of its schedule.** -/
theorem map_call?_derivationLives {n : Nat} (hlimits : limitFault? 8 request.rounds n = none) :
    (derivationLives request n).map Life.call? =
      (callsOf (schedule checksumPrf.toPrf request n)).map some := by
  have hcalls : callsOf (schedule checksumPrf.toPrf request n) =
      checksumPrf.callSequence request ((n + 7) / 8) := callsOf_schedule streams_checksumPrf hlimits
  simp only [hcalls, derivationLives, Prf.callSequence, List.map_flatMap, List.map_map,
    Function.comp_def, call?_roundLife]

end Derivation

/-! ### One action -/

/-- **The contexts of an action**, in the order in which they come to an end. A request that
breaks a limit has none, and a derivation has those of the calls made before its flag is found
raised. -/
def lives : Action → Journal → List Life
  | .reset, _ => []
  | .compute key pieces n _, _ => [⟨key, pieces, some n⟩]
  | .abandon key pieces, _ => [⟨key, pieces, none⟩]
  | .derive flag request n _, journal =>
    if limitFault? 8 request.rounds n = none then
      (derivationLives request n).take
        (callsMade flag (schedule checksumPrf.toPrf request n) (journal.begun request 8 n))
    else []
  | .verify expected request, _ =>
    if limitFault? 8 request.rounds expected.length = none then
      derivationLives request expected.length
    else []

/-- Whether an action forgets the record. -/
def Action.isReset : Action → Bool
  | .reset => true
  | _ => false

/-- **Finishing a context**: the output goes to the front of the buffer and the call into the
record, or nothing happens at all. -/
theorem finish?_context (key : Bytes) (pieces : List Bytes) {n : Nat} (out : Buffer n)
    (journal : Journal) :
    finish? (checksumPrf.context key pieces) out journal =
      (out.writeFront? (output key pieces.flatten),
        if 8 ≤ n then { journal with calls := journal.calls.push ⟨key, pieces.flatten⟩ }
        else journal) := by
  have hwrite : checksumPrf.toPrf.finish? (checksumPrf.context key pieces) out =
      out.writeFront? (output key pieces.flatten) := by
    rw [← toList_value]
    rfl
  have hroom := length_output key pieces.flatten
  unfold finish?
  rw [hwrite, context_checksumPrf, Buffer.writeFront?]
  by_cases hn : 8 ≤ n
  · rw [dif_pos (hroom ▸ hn), if_pos hn]
    rfl
  · rw [dif_neg (hroom ▸ hn), if_neg hn]
    rfl

/-- The calls of a derivation are recorded as its contexts are. -/
theorem calls_derivation (flag : CancelFlag) (request : Request) {n : Nat} (buffer : Buffer n)
    (journal : Journal) :
    (deriveCancellable checksumPrf flag request buffer journal).2.calls.toList =
      journal.calls.toList ++ recorded (lives (.derive flag request n buffer) journal) := by
  rw [lives]
  cases hlimits : limitFault? 8 request.rounds n with
  | some fault =>
    have hfault : limitFault? checksumPrf.width request.rounds n = some fault := hlimits
    rw [deriveCancellable_of_fault flag hfault, if_neg nofun]
    exact (List.append_nil _).symm
  | none =>
    have hnone : limitFault? checksumPrf.width request.rounds n = none := hlimits
    have hexecuted := calls_execute flag (schedule checksumPrf.toPrf request n)
      (journal.begun request 8 n)
    rw [← recorded_take (map_call?_derivationLives hlimits)] at hexecuted
    rw [if_pos rfl, deriveCancellable_apply checksumPrf flag request hnone]
    -- Whether the derivation was cancelled is logged, which the record does not show.
    dsimp only
    split
    · exact hexecuted
    · exact hexecuted

/-- The contexts of a verification are those of a derivation that nothing stops. -/
theorem lives_verify (expected : Bytes) (request : Request) (buffer : Buffer expected.length)
    (journal : Journal) :
    lives (.verify expected request) journal =
      lives (.derive .never request expected.length buffer) journal := by
  rw [lives, lives]
  by_cases hlimits : limitFault? 8 request.rounds expected.length = none
  · have hlength := congrArg List.length (map_call?_derivationLives hlimits)
    rw [List.length_map, List.length_map] at hlength
    rw [if_pos hlimits, if_pos hlimits, callsMade_never, ← hlength, List.take_length]
  · rw [if_neg hlimits, if_neg hlimits]

/-- A verification derives into a new buffer, and then calls nothing any more. -/
theorem calls_verification (expected : Bytes) (request : Request) (journal : Journal) :
    (verify checksumPrf expected request journal).2.calls.toList =
      journal.calls.toList ++ recorded (lives (.verify expected request) journal) := by
  rw [lives_verify expected request (Buffer.zeros _), ← calls_derivation, calls_verify]
  rfl

/-- **A call of a derivation** is the finishing of a context into an array of eight bytes. -/
theorem finish?_eq_invoke (key : Bytes) (pieces : List Bytes) (array : Buffer 8)
    (journal : Journal) :
    finish? (checksumPrf.context key pieces) array journal =
      (some (invoke checksumPrf.toPrf key pieces journal).1,
        (invoke checksumPrf.toPrf key pieces journal).2) := by
  have hwritten := map_toList_writeFront?_output key pieces.flatten array
  rw [if_pos (Nat.le_refl 8), List.drop_of_length_le (by simp), List.append_nil,
    Option.map_eq_some_iff] at hwritten
  obtain ⟨buffer, hbuffer, hbytes⟩ := hwritten
  have hvalue : buffer = checksumPrf.value key pieces :=
    Vector.toList_inj.mp (hbytes.trans (toList_value key pieces).symm)
  rw [finish?_context, hbuffer, hvalue]
  rfl

theorem perform_compute (key : Bytes) (pieces : List Bytes) {n : Nat} (out : Buffer n)
    (journal : Journal) :
    perform (.compute key pieces n out) journal =
      if 8 ≤ n then (.written (output key pieces.flatten ++ out.toList.drop 8),
        { journal with calls := journal.calls.push ⟨key, pieces.flatten⟩ })
      else (.refused, journal) := by
  have hwritten := map_toList_writeFront?_output key pieces.flatten out
  rw [perform, bind_apply, finish?_context]
  by_cases hn : 8 ≤ n
  · rw [if_pos hn, Option.map_eq_some_iff] at hwritten
    obtain ⟨buffer, hbuffer, hbytes⟩ := hwritten
    rw [if_pos hn, if_pos hn, hbuffer, ← hbytes]
    rfl
  · rw [if_neg hn, Option.map_eq_none_iff] at hwritten
    rw [if_neg hn, if_neg hn, hwritten]
    rfl

/-- **What one action adds to the record** are the calls of its contexts, unless it forgets
everything. -/
theorem calls_perform (action : Action) (journal : Journal) :
    (perform action journal).2.calls.toList =
      (if action.isReset then [] else journal.calls.toList) ++ recorded (lives action journal) := by
  cases action with
  | reset => rfl
  | compute key pieces n out =>
    rw [perform_compute]
    by_cases hn : 8 ≤ n
    · simp [lives, recorded, Life.call?, Action.isReset, hn]
    · simp [lives, recorded, Life.call?, Action.isReset, hn]
  | abandon key pieces => exact (List.append_nil _).symm
  | derive flag request n buffer => exact calls_derivation flag request buffer journal
  | verify expected request => exact calls_verification expected request journal

/-! ### A session -/

/-- The actions of a session, each with the journal that it begins with. -/
def trace (journal : Journal) : List Action → List (Journal × Action)
  | [] => []
  | action :: rest => (journal, action) :: trace (perform action journal).2 rest

/-- The part of a session since the record was last forgotten. -/
def sinceReset (journal : Journal) (actions : List Action) : List (Journal × Action) :=
  (trace journal actions).rtakeWhile fun step => !step.2.isReset

/-- One more action begins with the journal that the session has ended with. -/
theorem trace_append_singleton (journal : Journal) (actions : List Action) (action : Action) :
    trace journal (actions ++ [action]) =
      trace journal actions ++ [((session actions journal).2, action)] := by
  induction actions generalizing journal with
  | nil => rfl
  | cons first rest ih => exact congrArg (List.cons _) (ih _)

theorem session_append_singleton (journal : Journal) (actions : List Action) (action : Action) :
    (session (actions ++ [action]) journal).2 =
      (perform action (session actions journal).2).2 := by
  induction actions generalizing journal with
  | nil => rfl
  | cons first rest ih => exact ih _

theorem sinceReset_append_reset {journal : Journal} (actions : List Action) {action : Action}
    (hreset : action.isReset = true) : sinceReset journal (actions ++ [action]) = [] := by
  rw [sinceReset, trace_append_singleton, List.rtakeWhile_concat_neg _ _ _ (by simp [hreset])]

theorem sinceReset_append_other {journal : Journal} (actions : List Action) {action : Action}
    (hother : action.isReset = false) :
    sinceReset journal (actions ++ [action]) =
      sinceReset journal actions ++ [((session actions journal).2, action)] := by
  rw [sinceReset, trace_append_singleton, List.rtakeWhile_concat_pos _ _ _ (by simp [hother]),
    sinceReset]

/-- **What the record holds after a session.** -/
theorem calls_session (journal : Journal) (actions : List Action) :
    (session actions journal).2.calls.toList =
      (if actions.any Action.isReset then [] else journal.calls.toList) ++
        recorded ((sinceReset journal actions).flatMap fun step => lives step.2 step.1) := by
  -- What the last action does to the record depends on what it was before, so the induction
  -- goes from the last action to the first.
  induction actions using List.reverseRecOn with
  | nil => exact (List.append_nil _).symm
  | append_singleton actions action ih =>
    rw [session_append_singleton, calls_perform, List.any_append, List.any_cons, List.any_nil,
      Bool.or_false]
    cases hreset : action.isReset with
    | true =>
      have hnone : lives action (session actions journal).2 = [] := by
        cases action with
        | reset => rfl
        | _ => exact absurd hreset nofun
      rw [sinceReset_append_reset actions hreset, hnone, Bool.or_true]
      rfl
    | false =>
      rw [sinceReset_append_other actions hreset, List.flatMap_append, recorded_append,
        Bool.or_false, ← List.append_assoc, ← ih]
      simp

/-- The rows of a session show one action after the other. -/
theorem getElem?_session (journal : Journal) (actions : List Action) {k : Nat}
    (hk : k < actions.length) :
    (session actions journal).1[k]? = some
      { reply := (perform actions[k] (session (actions.take k) journal).2).1
        calls := (session (actions.take (k + 1)) journal).2.calls.toList } := by
  induction actions generalizing journal k with
  | nil => exact absurd hk (Nat.not_lt_zero k)
  | cons action rest ih =>
    cases k with
    | zero => rfl
    | succ k => exact ih _ (Nat.lt_of_succ_lt_succ hk)

/-- A derivation that is turned down, or whose flag is raised before any call is made, leaves
the record as it is. -/
theorem calls_derivation_of_stopped {flag : CancelFlag} {request : Request} {n : Nat}
    {journal : Journal} (hstopped : limitFault? 8 request.rounds n ≠ none ∨
      ∀ later : Journal, later.calls = journal.calls → flag later = true) (buffer : Buffer n) :
    (perform (.derive flag request n buffer) journal).2.calls = journal.calls := by
  refine Array.toList_inj.mp ((calls_derivation flag request buffer journal).trans ?_)
  have hnone : lives (.derive flag request n buffer) journal = [] := by
    rw [lives]
    rcases hstopped with hfault | hraised
    · exact if_neg hfault
    · split
      · rw [callsMade_schedule_of_raised (hraised (journal.begun request 8 n) rfl), List.take_zero]
      · rfl
  rw [hnone]
  exact List.append_nil _

/-- **The record holds exactly what was finished since it was last forgotten.**

After every action of a session, the record is made of the contexts that have come to an end
since the last time it was forgotten, and that were finished into a buffer of at least eight
bytes: the key of each, and all that it has absorbed. If it was never forgotten, what it held
before the session is in front. Where the pieces of a message were cut is not recorded.

A context that is dropped leaves no trace, and neither does one that is finished into a buffer
too short, which is refused. In a longer buffer the checksum of key, separator and message
stands at the front, and the bytes behind it stay as they were, whatever the record holds. A
derivation that is turned down or cancelled before its first call adds nothing to the record
and takes nothing away, and each call that a derivation does make is such a context, finished
into an array of eight bytes. -/
theorem record_eq_finished_since_reset :
    (∀ (journal : Journal) (actions : List Action) (k : Nat) (hk : k < actions.length),
      ∃ row, (session actions journal).1[k]? = some row ∧
        row.reply = (perform actions[k] (session (actions.take k) journal).2).1 ∧
        row.calls =
          (if (actions.take (k + 1)).any Action.isReset then [] else journal.calls.toList) ++
            recorded ((sinceReset journal (actions.take (k + 1))).flatMap
              fun step => lives step.2 step.1)) ∧
    (∀ (key : Bytes) (pieces : List Bytes) (journal : Journal),
      perform (.abandon key pieces) journal = (.done, journal)) ∧
    (∀ (key : Bytes) (pieces : List Bytes) (n : Nat) (out : Buffer n) (journal : Journal),
      perform (.compute key pieces n out) journal =
        if 8 ≤ n then
          (.written (bigEndian 8 (Fnv.hash (key ++ 0xff :: pieces.flatten)) ++ out.toList.drop 8),
            { journal with calls := journal.calls.push ⟨key, pieces.flatten⟩ })
        else (.refused, journal)) ∧
    (∀ (flag : CancelFlag) (request : Request) (n : Nat) (buffer : Buffer n) (journal : Journal),
      (limitFault? 8 request.rounds n ≠ none ∨
        ∀ later : Journal, later.calls = journal.calls → flag later = true) →
      (perform (.derive flag request n buffer) journal).2.calls = journal.calls) ∧
    (∀ (expected : Bytes) (request : Request) (journal : Journal),
      limitFault? 8 request.rounds expected.length ≠ none →
      (perform (.verify expected request) journal).2.calls = journal.calls) ∧
    ∀ (key : Bytes) (pieces : List Bytes) (array : Buffer 8) (journal : Journal),
      finish? (checksumPrf.context key pieces) array journal =
        (some (invoke checksumPrf.toPrf key pieces journal).1,
          (invoke checksumPrf.toPrf key pieces journal).2) := by
  refine ⟨fun journal actions k hk => ?_, fun _ _ _ => rfl, fun key pieces _ out journal => ?_,
    fun _ _ _ buffer _ hstopped => calls_derivation_of_stopped hstopped buffer,
    fun expected request journal hfault => ?_, finish?_eq_invoke⟩
  · exact ⟨_, getElem?_session journal actions hk, rfl, calls_session journal _⟩
  · exact perform_compute key pieces out journal
  · refine Array.toList_inj.mp ((calls_verification expected request journal).trans ?_)
    rw [lives, if_neg hfault]
    exact List.append_nil _

/-- Before the record is forgotten it holds a call. Then a message in three pieces is recorded
as a whole; of the next four contexts and derivations none is. A derivation of three blocks is
stopped in front of the second one, so that it adds two calls, and a verification adds one,
although the key is another one. A raised flag and keys of no bytes add nothing to any
record. -/
theorem record_eq_finished_since_reset_mixed :
    let request : Request := ⟨[0x70, 0x77], [0x73], 2⟩
    let flag : CancelFlag := fun journal => 3 ≤ journal.calls.size
    let actions : List Action :=
      [.compute [0x61] [[0x62]] 8 (.zeros 8), .reset,
        .compute [0x6b] [[0x61, 0x62], [], [0x63]] 12 (Vector.replicate 12 0x5a),
        .abandon [0x6b] [[0x61]], .compute [0x6b] [[0x61]] 7 (.zeros 7),
        .derive .never ⟨[0x70], [], 0⟩ 8 (.zeros 8),
        .derive (.constant true) request 8 (.zeros 8),
        .derive flag request 20 (.zeros 20), .verify [0x00] ⟨[0x71], [], 1⟩]
    8 < actions.length ∧
    ∃ row, (session actions .empty).1[8]? = some row ∧
      row.calls = [⟨[0x6b], [0x61, 0x62, 0x63]⟩,
        ⟨[0x70, 0x77], [0x73, 0, 0, 0, 1]⟩,
        ⟨[0x70, 0x77], output [0x70, 0x77] [0x73, 0, 0, 0, 1]⟩,
        ⟨[0x71], [0, 0, 0, 1]⟩] ∧
      ∀ journal, (perform (.derive (.constant true) request 8 (.zeros 8)) journal).2.calls =
          journal.calls ∧
        (perform (.derive .never request 0 (.zeros 0)) journal).2.calls = journal.calls ∧
        (perform (.verify [] request) journal).2.calls = journal.calls := by
  intro request flag actions
  obtain ⟨row, hrow, -, hcalls⟩ :=
    record_eq_finished_since_reset.1 .empty actions 8 (by decide)
  refine ⟨by decide, row, hrow, hcalls.trans (by rfl), fun journal => ⟨?_, ?_, ?_⟩⟩
  · exact record_eq_finished_since_reset.2.2.2.1 (.constant true) request 8 (.zeros 8) journal
      (Or.inr fun _ _ => rfl)
  · exact record_eq_finished_since_reset.2.2.2.1 .never request 0 (.zeros 0) journal
      (Or.inl (by decide))
  · exact record_eq_finished_since_reset.2.2.2.2.1 [] request journal (by decide)

end Recorder

end KeyDerivation
