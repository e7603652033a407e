import KeyDerivation.Proofs.Derivation.Cancellation
import KeyDerivation.Proofs.Derivation.Check

/-!
# All ways of deriving a key give the same answer

`KeyDerivation.BlockPrf.answer` says without buffers, arrays and journals what a derivation
answers: the first limit that the request breaks, or the key. Every way of deriving one gives
this answer. They differ in where the key is written, in how often the request is checked
before, and in whether a flag is looked at, and none of this can be told from the answer: a
derivation replaces whatever was in the buffer, a check that is passed changes nothing, and
neither does a look that finds the flag down.
-/

namespace KeyDerivation

/-- **What a derivation answers**: the first limit that the request breaks, or the key. -/
def BlockPrf.answer (prf : BlockPrf) (request : Request) (n : Nat) : Except KdfError Bytes :=
  match limitFault? prf.width request.rounds n with
  | some fault => .error (.limit fault)
  | none => .ok (prf.key request.password (fun i => firstPieces request.salt (UInt32.ofNat i))
      request.rounds.toNat n)

/-- The answer of a derivation that has ended: its error, or the bytes in the buffer. -/
def Outcome.answer {n : Nat} (outcome : Outcome n) : Except KdfError Bytes :=
  outcome.status.map fun _ => outcome.buffer.toList

section Answer

variable {n : Nat} {prf : BlockPrf} {request : Request}

theorem BlockPrf.answer_of_fault {fault : LimitFault}
    (h : limitFault? prf.width request.rounds n = some fault) :
    prf.answer request n = .error (.limit fault) := by
  rw [answer, h]

theorem BlockPrf.answer_of_none (h : limitFault? prf.width request.rounds n = none) :
    prf.answer request n =
      .ok (prf.key request.password (fun i => firstPieces request.salt (UInt32.ofNat i))
        request.rounds.toNat n) := by
  rw [answer, h]

/-- A key returned in a new buffer is the answer that was given in that buffer. -/
theorem Outcome.map_toList_status (outcome : Outcome n) :
    (outcome.status.map fun _ => outcome.buffer).map Vector.toList = outcome.answer := by
  rw [answer]
  cases outcome.status <;> rfl

/-- **A derivation into a buffer** gives the answer, whatever was in the buffer. -/
theorem answer_derive (buffer : Buffer n) (journal : Journal) :
    (derive prf request buffer journal).1.answer = prf.answer request n := by
  cases h : limitFault? prf.width request.rounds n with
  | some fault =>
    rw [derive_of_fault h, BlockPrf.answer_of_fault h]
    rfl
  | none =>
    rw [derive_apply h, BlockPrf.answer_of_none h, ← toList_written_plan]
    rfl

/-- **A derivation that may be cancelled** gives the answer too, unless a look finds the flag
raised. What the flag would have answered at other moments does not matter. -/
theorem answer_deriveCancellable (flag : CancelFlag) (buffer : Buffer n) (journal : Journal)
    (hdown : journal.LooksDown (deriveCancellable prf flag request buffer journal).2) :
    (deriveCancellable prf flag request buffer journal).1.answer = prf.answer request n := by
  cases h : limitFault? prf.width request.rounds n with
  | some fault =>
    rw [deriveCancellable_of_fault flag h, BlockPrf.answer_of_fault h]
    rfl
  | none =>
    rcases deriveCancellable_cases prf flag request h buffer journal with
      ⟨hrun, -⟩ | ⟨-, hraised⟩
    · rw [hrun, BlockPrf.answer_of_none h, ← toList_written_plan]
      rfl
    · exact absurd hraised hdown.not_lastLookRaised

/-- **A derivation into a new buffer** gives the answer. -/
theorem answer_deriveFresh (journal : Journal) :
    (deriveFresh prf request n journal).1.map Vector.toList = prf.answer request n := by
  rw [deriveFresh_apply, Outcome.map_toList_status, answer_derive]

/-- **A verification** compares the answer with the expected key. -/
theorem verify_eq_answer (expected : Bytes) (journal : Journal) :
    (verify prf expected request journal).1 =
      match prf.answer request expected.length with
      | .error e => .error e
      | .ok key => if key = expected then .ok () else .error .mismatch := by
  rw [verify_apply, ← answer_deriveFresh journal]
  rcases deriveFresh prf request expected.length journal with ⟨e | key, final⟩
  · rfl
  · simp only [Except.map]
    split <;> rfl

end Answer

/-- **All ways of deriving a key agree.** Deriving into a buffer, with a flag that is never
raised or one that no look finds raised, into a new buffer that is made before the request is
checked or after, and with parameters that were checked in advance, in either kind of buffer,
gives the same answer: the same error with the same numbers, or the same bytes. The three
derivations in use are among them. -/
theorem entry_points_agree :
    (∀ (prf : BlockPrf) (request : Request) (n : Nat) (journal : Journal),
      let answer := prf.answer request n
      (∀ buffer : Buffer n, (derive prf request buffer journal).1.answer = answer) ∧
      (∀ buffer : Buffer n,
        (deriveCancellable prf .never request buffer journal).1.answer = answer) ∧
      (∀ (flag : CancelFlag) (buffer : Buffer n),
        let run := deriveCancellable prf flag request buffer journal
        journal.LooksDown run.2 → run.1.answer = answer) ∧
      (deriveFresh prf request n journal).1.map Vector.toList = answer ∧
      (deriveKey prf request n journal).1.map Vector.toList = answer ∧
      match (Parameters.make prf.width request.rounds n journal).1 with
      | .error e => answer = .error e
      | .ok parameters => ∀ journal',
        (∀ buffer : Buffer n,
          (parameters.derive prf request.password request.salt buffer journal').1.answer =
            answer) ∧
        (parameters.deriveKey prf request.password request.salt journal').1.map Vector.toList =
          answer) ∧
    ∀ (request : Request) (n : Nat) (buffer : Buffer n) (journal : Journal),
      (deriveHmacSha1 request buffer journal).1.answer = hmacSha1.answer request n ∧
      (deriveHmacSha256 request buffer journal).1.answer = hmacSha256.answer request n ∧
      (deriveHmacSha512 request buffer journal).1.answer = hmacSha512.answer request n := by
  constructor
  · intro prf request n journal answer
    have hinto : ∀ (buffer : Buffer n) journal',
        (derive prf request buffer journal').1.answer = answer := answer_derive
    have hkey : ∀ journal', (deriveKey prf request n journal').1.map Vector.toList = answer := by
      intro journal'
      rw [deriveKey_eq_deriveFresh]
      exact answer_deriveFresh journal'
    refine ⟨fun buffer => hinto buffer journal, fun buffer => hinto buffer journal,
      fun flag buffer => answer_deriveCancellable flag buffer journal,
      answer_deriveFresh journal, hkey journal, ?_⟩
    cases h : limitFault? prf.width request.rounds n with
    | some fault =>
      rw [Parameters.make_of_fault h]
      exact BlockPrf.answer_of_fault h
    | none =>
      rw [Parameters.make_of_none h]
      -- The parameters are the round count and the length that were asked for.
      intro journal'
      refine ⟨fun buffer => ?_, hkey journal'⟩
      rw [Parameters.derive, if_pos rfl]
      exact hinto buffer journal'
  · intro request n buffer journal
    exact ⟨answer_derive buffer journal, answer_derive buffer journal,
      answer_derive buffer journal⟩

/-- Three blocks of two rounds are six calls, so that a flag which the seventh call would raise
is found down at every look. -/
theorem entry_points_agree_late_flag :
    let request : Request := ⟨[0x70, 0x77], [0x73, 0x61, 0x6c, 0x74], 2⟩
    let run := deriveCancellable checksumPrf (.afterCalls 7) request
      (Vector.replicate 20 0xaa) .empty
    Journal.empty.LooksDown run.2 ∧ run.1.answer = checksumPrf.answer request 20 :=
  have hdown : Journal.empty.LooksDown (deriveCancellable checksumPrf (.afterCalls 7)
      ⟨[0x70, 0x77], [0x73, 0x61, 0x6c, 0x74], 2⟩ (Vector.replicate 20 0xaa : Buffer 20)
      .empty).2 :=
    ⟨#[⟨0, false⟩, ⟨2, false⟩, ⟨4, false⟩], by decide +kernel, by decide⟩
  ⟨hdown, (entry_points_agree.1 checksumPrf ⟨[0x70, 0x77], [0x73, 0x61, 0x6c, 0x74], 2⟩ 20
    .empty).2.2.1 (.afterCalls 7) _ hdown⟩

end KeyDerivation
