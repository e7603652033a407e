import KeyDerivation.Fnv
import KeyDerivation.Proofs.Derivation.Key

/-!
# The calls of a derivation

A derivation calls its pseudorandom function over and over, and each call but the first one
of a block takes its message from the call before. `KeyDerivation.Prf.blockCall` says this
with calls alone: the message of a call is the output for the call before it, whatever
arrays the output went through. `KeyDerivation.Prf.callSequence` lists the calls of all
blocks, block by block and round by round.

Whether the flag is looked at in between makes no difference to the calls, so they can be
read off the schedule (`KeyDerivation.callsOf_schedule`), and a derivation that stops early has
made the first ones of them (`KeyDerivation.calls_deriveCancellable`).

What a call says is its key and its whole message. The first message of a block is absorbed
in two pieces, so for the outputs to be those of the calls, the function must not mind pieces.
The checksum, which derivations are watched with, does not.
-/

namespace KeyDerivation

/-! ### The calls of a schedule -/

/-- The call that a step makes, if it makes one. -/
def Step.call? : Step → Option Call
  | call c => some c
  | look => none

/-- **The calls of a schedule**, in order. -/
def callsOf (steps : List Step) : List Call := steps.filterMap Step.call?

@[simp] theorem callsOf_nil : callsOf [] = [] := rfl

@[simp] theorem callsOf_call (c : Call) (steps : List Step) :
    callsOf (.call c :: steps) = c :: callsOf steps := rfl

@[simp] theorem callsOf_look (steps : List Step) : callsOf (.look :: steps) = callsOf steps := rfl

@[simp] theorem callsOf_append (steps steps' : List Step) :
    callsOf (steps ++ steps') = callsOf steps ++ callsOf steps' := List.filterMap_append

theorem callsOf_flatMap {α : Type} (f : α → List Step) (l : List α) :
    callsOf (l.flatMap f) = l.flatMap fun a => callsOf (f a) := by
  induction l with
  | nil => rfl
  | cons a l ih => rw [List.flatMap_cons, List.flatMap_cons, callsOf_append, ih]

/-- The calls of a schedule are added to those of the journal. -/
theorem Journal.calls_after (journal : Journal) (steps : List Step) :
    (journal.after steps).calls.toList = journal.calls.toList ++ callsOf steps := by
  induction steps generalizing journal with
  | nil => simp [after]
  | cons step steps ih =>
    cases step with
    | call c => exact (ih (Step.note journal (.call c))).trans (by simp [Step.note])
    | look => exact ih (Step.note journal .look)

/-! ### The calls of a block -/

@[simp] theorem callsOf_lookBefore (round : Nat) : callsOf (lookBefore round) = [] := by
  unfold lookBefore
  split <;> rfl

/-- A block makes one call for its first message, and one for every link but the last. -/
theorem callsOf_blockSteps (prf : Prf) (request : Request) (index : UInt32) :
    callsOf (blockSteps prf request index) =
      ⟨request.password, (firstPieces request.salt index).flatten⟩ ::
        (List.range (request.rounds.toNat - 1)).map fun j =>
          ⟨request.password,
            (prf.link request.password (firstPieces request.salt index) j).toList⟩ := by
  have hround : ∀ j, callsOf (roundSteps prf request.password (firstPieces request.salt index)
      (2 + j)) = [⟨request.password,
        (prf.link request.password (firstPieces request.salt index) j).toList⟩] := by
    intro j
    rw [roundSteps, callsOf_append, callsOf_lookBefore, Nat.add_sub_cancel_left]
    rfl
  rw [blockSteps, callsOf_look, callsOf_call, callsOf_flatMap, List.range'_eq_map_range,
    List.flatMap_map]
  simp only [hround, List.map_eq_flatMap]

/-- A block makes as many calls as there are rounds. -/
theorem length_callsOf_blockSteps (prf : Prf) {request : Request} (hrounds : request.rounds ≠ 0)
    (index : UInt32) :
    (callsOf (blockSteps prf request index)).length = request.rounds.toNat := by
  rw [callsOf_blockSteps, List.length_cons, List.length_map, List.length_range]
  exact Nat.sub_add_cancel (Request.toNat_rounds_pos hrounds)

/-- A first message as a whole: the salt, and the number of the block behind it. -/
theorem flatten_firstPieces_ofNat (salt : Bytes) {i : Nat} (hi : i < 2 ^ 32) :
    (firstPieces salt (UInt32.ofNat i)).flatten = salt ++ bigEndian 4 i := by
  rw [firstPieces_ofNat salt hi]
  simp

namespace Prf

variable (prf : Prf) (request : Request)

/-- The output for a call. -/
def answer (call : Call) : Buffer prf.width := prf.value call.key [call.message]

/-- **The calls of a block**, counted from zero: the first message is the salt followed by
the number of the block in four bytes, and every further one is the output for the call
before. -/
def blockCall (index : Nat) : Nat → Call
  | 0 => ⟨request.password, request.salt ++ bigEndian 4 index⟩
  | j + 1 => ⟨request.password, (prf.answer (blockCall index j)).toList⟩

/-- **The calls of a derivation** of some number of blocks, block by block and round by
round. -/
def callSequence (blocks : Nat) : List Call :=
  (List.range blocks).flatMap fun i =>
    (List.range request.rounds.toNat).map (prf.blockCall request (i + 1))

theorem length_callSequence (blocks : Nat) :
    (prf.callSequence request blocks).length = blocks * request.rounds.toNat := by
  simp only [callSequence, List.length_flatMap, List.length_map, List.length_range, List.map_const',
    List.sum_replicate_nat]

/-- Every call is under the password. -/
theorem key_blockCall (index j : Nat) : (prf.blockCall request index j).key = request.password := by
  cases j <;> rfl

variable {prf request}

/-- **The output for a call is the link it is made for.** -/
theorem Streams.answer_blockCall (hstreams : prf.Streams) {index : Nat} (hindex : index < 2 ^ 32)
    (j : Nat) :
    prf.answer (prf.blockCall request index j) =
      prf.link request.password (firstPieces request.salt (UInt32.ofNat index)) j := by
  induction j with
  | zero => exact (hstreams.value_firstPieces request.password request.salt hindex).symm
  | succ j ih => rw [blockCall, answer, ih, link]

/-- The calls of the schedule of a block are the calls of that block. -/
theorem Streams.callsOf_blockSteps (hstreams : prf.Streams) (hrounds : request.rounds ≠ 0)
    {index : Nat} (hindex : index < 2 ^ 32) :
    callsOf (blockSteps prf request (UInt32.ofNat index)) =
      (List.range request.rounds.toNat).map (prf.blockCall request index) := by
  have hcount : request.rounds.toNat = request.rounds.toNat - 1 + 1 :=
    (Nat.sub_add_cancel (Request.toNat_rounds_pos hrounds)).symm
  rw [KeyDerivation.callsOf_blockSteps, flatten_firstPieces_ofNat _ hindex, hcount,
    List.range_succ_eq_map, List.map_cons, List.map_map, Nat.add_sub_cancel]
  refine congrArg₂ List.cons rfl (List.map_congr_left fun j _ => ?_)
  rw [Function.comp_apply, blockCall, hstreams.answer_blockCall hindex]

end Prf

/-! ### The calls of a derivation -/

/-- The schedule of a derivation by the numbers of its blocks. -/
theorem schedule_eq (prf : Prf) (request : Request) (n : Nat) :
    schedule prf request n = (List.range (Segment.count prf.width n)).flatMap fun i =>
      blockSteps prf request (UInt32.ofNat (i + 1)) := by
  have hindex := congrArg (List.flatMap (blockSteps prf request))
    (Segment.map_index_plan (w := prf.width) (n := n))
  rwa [List.flatMap_map, List.flatMap_map] at hindex

/-- A derivation makes as many calls for every block. -/
theorem length_callsOf_schedule (prf : Prf) {n : Nat} {request : Request}
    (hrounds : request.rounds ≠ 0) :
    (callsOf (schedule prf request n)).length =
      Segment.count prf.width n * request.rounds.toNat := by
  rw [schedule, callsOf_flatMap, List.length_flatMap]
  simp only [length_callsOf_blockSteps prf hrounds, List.map_const', List.sum_replicate_nat,
    Segment.length_plan]

section Derivation

variable {n : Nat} {prf : BlockPrf} {request : Request}

/-- **The calls of the schedule** of a derivation within the limits. -/
theorem callsOf_schedule (hstreams : prf.Streams)
    (hlimits : limitFault? prf.width request.rounds n = none) :
    callsOf (schedule prf.toPrf request n) =
      prf.callSequence request (Segment.count prf.width n) := by
  rw [schedule_eq, callsOf_flatMap, Prf.callSequence, List.flatMap_def, List.flatMap_def]
  refine congrArg List.flatten (List.map_congr_left fun i hi => ?_)
  have hlt := List.mem_range.mp hi
  have hcount := count_lt_of_limitFault?_eq_none hlimits
  exact hstreams.callsOf_blockSteps (limits_of_limitFault?_eq_none hlimits).1 (by omega)

/-- **A derivation that may be cancelled makes the first calls of its schedule**, and all of
them if it ends with the key. -/
theorem calls_deriveCancellable (flag : CancelFlag)
    (hlimits : limitFault? prf.width request.rounds n = none) (buffer : Buffer n)
    (journal : Journal) :
    let run := deriveCancellable prf flag request buffer journal
    ∃ made, run.2.calls.toList = journal.calls.toList ++ made ∧
      made <+: callsOf (schedule prf.toPrf request n) ∧
      (run.1.status = .ok () → made = callsOf (schedule prf.toPrf request n)) := by
  rw [deriveCancellable_apply prf flag request hlimits]
  rcases execute_cases flag (schedule prf.toPrf request n) (journal.begun request prf.width n) with
    hdone | ⟨before, rest, hsteps, hstop⟩
  · rw [hdone]
    exact ⟨_, Journal.calls_after _ _, List.prefix_rfl, fun _ => rfl⟩
  · rw [hstop]
    refine ⟨callsOf before, Journal.calls_after (journal.begun request prf.width n) before, ?_,
      fun hok => absurd hok nofun⟩
    rw [hsteps, callsOf_append]
    exact List.prefix_append _ _

/-- A derivation without a flag makes all calls of its schedule. -/
theorem calls_derive (hlimits : limitFault? prf.width request.rounds n = none)
    (buffer : Buffer n) (journal : Journal) :
    (derive prf request buffer journal).2.calls.toList =
      journal.calls.toList ++ callsOf (schedule prf.toPrf request n) := by
  rw [derive_apply hlimits]
  exact Journal.calls_after (journal.begun request prf.width n) _

/-- **A stretch of the derived key** is the front of the exclusive or of the outputs for the
calls of its block. -/
theorem take_drop_derive (hstreams : prf.Streams)
    (hlimits : limitFault? prf.width request.rounds n = none) (buffer : Buffer n)
    (journal : Journal) {i : Nat} (hi : i < Segment.count prf.width n) :
    ((derive prf request buffer journal).1.buffer.toList.drop (i * prf.width)).take prf.width =
      (xorAll ((List.range request.rounds.toNat).map fun j =>
        prf.answer (prf.blockCall request (i + 1) j))).toList.take (n - i * prf.width) := by
  have hcount := count_lt_of_limitFault?_eq_none hlimits
  have hlinks : (List.range request.rounds.toNat).map
        (fun j => prf.answer (prf.blockCall request (i + 1) j)) =
      (List.range request.rounds.toNat).map
        (prf.link request.password (firstPieces request.salt (UInt32.ofNat (i + 1)))) :=
    List.map_congr_left fun j _ => hstreams.answer_blockCall (by omega) j
  rw [derive_apply hlimits, toList_written_plan, Prf.take_drop_key _ _ _ _ _ hi, hlinks, Prf.block]

/-- **Exactly which calls a derivation makes.**

Watched with the checksum, a derivation within the limits adds `rounds` calls for every block
to the record, whatever the record held before: all under the password, block by block and
round by round, the first of a block for the salt and the number of the block, and every
further one for the output of the call before. The bytes of a block are the exclusive or of
the outputs for its calls, as many of them as there is room for.

A derivation that may be cancelled makes calls of this sequence in this order, up to some
point, and all of them if it ends with the key. -/
theorem recorded_calls_eq_callSequence (request : Request) (journal : Journal)
    (haccepted : (checkLimits checksumPrf.width request.rounds n journal).1 = .ok ()) :
    let rounds := request.rounds.toNat
    let blocks := (n + 7) / 8
    let sequence := checksumPrf.callSequence request blocks
    (sequence.length = blocks * rounds ∧ ∀ call ∈ sequence, call.key = request.password) ∧
    (∀ buffer : Buffer n,
      let run := derive checksumPrf request buffer journal
      run.1.status = .ok () ∧ run.2.calls.toList = journal.calls.toList ++ sequence ∧
      ∀ i < blocks, (run.1.buffer.toList.drop (i * 8)).take 8 =
        (xorAll ((List.range rounds).map fun j =>
          checksumPrf.answer (checksumPrf.blockCall request (i + 1) j))).toList.take (n - i * 8)) ∧
    ∀ (flag : CancelFlag) (buffer : Buffer n),
      let run := deriveCancellable checksumPrf flag request buffer journal
      ∃ made, run.2.calls.toList = journal.calls.toList ++ made ∧ made <+: sequence ∧
        (run.1.status = .ok () → made = sequence) := by
  have hlimits := limitFault?_eq_none_of_checkLimits haccepted
  have hcalls : callsOf (schedule checksumPrf.toPrf request n) =
      checksumPrf.callSequence request ((n + 7) / 8) :=
    callsOf_schedule streams_checksumPrf hlimits
  refine ⟨⟨Prf.length_callSequence _ _ _, ?_⟩, fun buffer => ⟨?_, ?_, ?_⟩, fun flag buffer => ?_⟩
  · intro call hcall
    simp only [Prf.callSequence, List.mem_flatMap, List.mem_map] at hcall
    obtain ⟨i, -, j, -, rfl⟩ := hcall
    exact Prf.key_blockCall _ _ _ _
  · rw [derive_apply hlimits]
  · rw [calls_derive hlimits, hcalls]
  · exact fun i hi => take_drop_derive streams_checksumPrf hlimits buffer journal hi
  · rw [← hcalls]
    exact calls_deriveCancellable flag hlimits buffer journal

/-- Three blocks, the last one cut, on a record that already holds a call. -/
theorem recorded_calls_eq_callSequence_three_blocks :
    let request : Request := ⟨[0x70, 0x77], [0x73, 0x61, 0x6c, 0x74], 5⟩
    let journal : Journal := ⟨#[⟨[0x6b], [0x6d]⟩], #[], #[]⟩
    let sequence := checksumPrf.callSequence request 3
    (checkLimits checksumPrf.width request.rounds 20 journal).1 = .ok () ∧
    (sequence.length = 15 ∧ ∀ call ∈ sequence, call.key = [0x70, 0x77]) ∧
    (∀ buffer : Buffer 20,
      let run := derive checksumPrf request buffer journal
      run.1.status = .ok () ∧ run.2.calls.toList = ⟨[0x6b], [0x6d]⟩ :: sequence ∧
      ∀ i < 3, (run.1.buffer.toList.drop (i * 8)).take 8 =
        (xorAll ((List.range 5).map fun j =>
          checksumPrf.answer (checksumPrf.blockCall request (i + 1) j))).toList.take (20 - i * 8)) ∧
    ∀ (flag : CancelFlag) (buffer : Buffer 20),
      let run := deriveCancellable checksumPrf flag request buffer journal
      ∃ made, run.2.calls.toList = ⟨[0x6b], [0x6d]⟩ :: made ∧ made <+: sequence ∧
        (run.1.status = .ok () → made = sequence) :=
  have haccepted : (checkLimits checksumPrf.width 5 20 ⟨#[⟨[0x6b], [0x6d]⟩], #[], #[]⟩).1 =
      .ok () := rfl
  ⟨haccepted, recorded_calls_eq_callSequence ⟨[0x70, 0x77], [0x73, 0x61, 0x6c, 0x74], 5⟩
    ⟨#[⟨[0x6b], [0x6d]⟩], #[], #[]⟩ haccepted⟩

end Derivation

end KeyDerivation
