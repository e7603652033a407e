import KeyDerivation.Proofs.Derivation.Answer
import KeyDerivation.Proofs.Derivation.Calls
import KeyDerivation.Proofs.Derivation.Position

/-!
# What a verification accepts

A verification derives a key as long as the expected one and compares the two from end to end.
So for every length that is within the limits there is exactly one key that is accepted, the
derived one. As a key is the front of every longer one, the front of an accepted key is accepted
too: the length is chosen by whoever hands over the expected key.

What a verification calls is the same for all expected keys of one length
(`KeyDerivation.toList_calls_verify`). The comparison comes last and calls nothing, so that the
calls do not tell whether the keys agreed.
-/

namespace KeyDerivation

section Answer

variable {prf : BlockPrf} {request : Request} {n : Nat}

/-- A key is answered exactly to a request within the limits. -/
theorem BlockPrf.answer_eq_ok_iff {key : Bytes} :
    prf.answer request n = .ok key ↔ limitFault? prf.width request.rounds n = none ∧
      key = prf.key request.password (fun i => firstPieces request.salt (UInt32.ofNat i))
        request.rounds.toNat n := by
  cases h : limitFault? prf.width request.rounds n with
  | some fault =>
    rw [answer_of_fault h]
    exact iff_of_false nofun nofun
  | none =>
    rw [answer_of_none h, Except.ok.injEq]
    exact ⟨fun hkey => ⟨rfl, hkey.symm⟩, fun hkey => hkey.2.symm⟩

/-- **The front of a key that is answered** is the answer to the request for as many bytes. -/
theorem BlockPrf.answer_take {key : Bytes} (h : prf.answer request n = .ok key) {m : Nat}
    (hpos : 0 < m) (hle : m ≤ n) : prf.answer request m = .ok (key.take m) := by
  obtain ⟨hlimits, rfl⟩ := answer_eq_ok_iff.mp h
  obtain ⟨hrounds, -, hmax⟩ := limits_of_limitFault?_eq_none hlimits
  refine answer_eq_ok_iff.mpr ⟨limitFault?_eq_none hrounds hpos (Nat.le_trans hle hmax), ?_⟩
  exact Prf.take_key prf.width_pos _ _ _ hle

end Answer

/-! ### The status of a verification -/

section Status

variable {prf : BlockPrf} {request : Request} {expected : Bytes} {journal : Journal}

/-- A verification whose request breaks a limit is turned down like a derivation. -/
theorem status_verify_of_fault {fault : LimitFault}
    (h : limitFault? prf.width request.rounds expected.length = some fault) :
    (verify prf expected request journal).1 = .error (.limit fault) := by
  rw [verify_eq_answer, BlockPrf.answer_of_fault h]

/-- **A verification within the limits** compares the derived key with the expected one. -/
theorem status_verify_of_none
    (h : limitFault? prf.width request.rounds expected.length = none)
    (buffer : Buffer expected.length) (journal' : Journal) :
    (verify prf expected request journal).1 =
      if expected = (derive prf request buffer journal').1.buffer.toList then .ok ()
      else .error .mismatch := by
  rw [verify_eq_answer, BlockPrf.answer_of_none h, toList_buffer_derive h]
  simp only [eq_comm]

/-- **An expected key is accepted exactly if it is the answer** to the request for as many
bytes. -/
theorem status_verify_eq_ok_iff :
    (verify prf expected request journal).1 = .ok () ↔
      prf.answer request expected.length = .ok expected := by
  rw [verify_eq_answer]
  cases prf.answer request expected.length with
  | error e => exact iff_of_false nofun nofun
  | ok key =>
    rw [Except.ok.injEq]
    by_cases hkey : key = expected
    · exact iff_of_true (if_pos hkey) hkey
    · exact iff_of_false (fun h => absurd ((if_neg hkey).symm.trans h) nofun) hkey

end Status

/-! ### The calls of a verification -/

/-- **The calls of a verification** of a key of `n` bytes: those of a derivation, if one
begins. -/
def verificationCalls (prf : BlockPrf) (request : Request) (n : Nat) : List Call :=
  if limitFault? prf.width request.rounds n = none then callsOf (schedule prf.toPrf request n)
  else []

/-- **What a verification calls** follows from the length of the expected key. -/
theorem toList_calls_verify (prf : BlockPrf) (request : Request) (expected : Bytes)
    (journal : Journal) :
    (verify prf expected request journal).2.calls.toList =
      journal.calls.toList ++ verificationCalls prf request expected.length := by
  rw [calls_verify, deriveFresh_apply, verificationCalls]
  cases h : limitFault? prf.width request.rounds expected.length with
  | some fault =>
    rw [derive_of_fault h, if_neg nofun]
    exact (List.append_nil _).symm
  | none =>
    rw [if_pos rfl]
    exact calls_derive h _ journal

/-! ### What is accepted -/

/-- A byte string that is as long as a buffer differs from it if it differs at some place. -/
theorem ne_toList_iff {bytes : Bytes} {buffer : Buffer bytes.length} :
    bytes ≠ buffer.toList ↔ ∃ k, ∃ _ : k < bytes.length, bytes[k] ≠ buffer[k] := by
  have heq : bytes = buffer.toList ↔ ∀ k (_ : k < bytes.length), bytes[k] = buffer[k] := by
    constructor
    · intro h k hk
      rw [List.getElem_of_eq h hk, Vector.getElem_toList]
    · intro h
      refine List.ext_getElem (by simp) fun k hk _ => ?_
      rw [Vector.getElem_toList, h k hk]
  simp only [ne_eq, heq, Classical.not_forall]

/-- **A verification accepts the derived key and nothing else.**

It ends well exactly if the request is within the limits and the expected key is, byte for byte,
the one that is derived in a buffer as long; with a mismatch exactly if the request is
within the limits and some byte is different; and otherwise with the error of the check. So one
key is accepted for every length within the limits, and with a key every front of it that is not
empty.

What is called follows from the length of the expected key alone, `rounds` calls for every
block. -/
theorem verify_accepts_derived_key_only (prf : BlockPrf) (request : Request) :
    (∀ (expected : Bytes) (buffer : Buffer expected.length) (journal journal' : Journal),
      let checked := (checkLimits prf.width request.rounds expected.length journal).1
      let key := (derive prf request buffer journal').1.buffer
      let status := (verify prf expected request journal).1
      (status = .ok () ↔ checked = .ok () ∧ expected = key.toList) ∧
      (status = .error .mismatch ↔
        checked = .ok () ∧ ∃ k, ∃ _ : k < expected.length, expected[k] ≠ key[k]) ∧
      ∀ error, checked = .error error → status = .error error) ∧
    (∀ (n : Nat) (journal : Journal),
      (checkLimits prf.width request.rounds n journal).1 = .ok () →
      ∃ key : Bytes, key.length = n ∧ ∀ (expected : Bytes) (journal' : Journal),
        expected.length = n →
          ((verify prf expected request journal').1 = .ok () ↔ expected = key)) ∧
    (∀ (expected front : Bytes) (journal journal' : Journal),
      (verify prf expected request journal).1 = .ok () → front <+: expected → front ≠ [] →
        (verify prf front request journal').1 = .ok ()) ∧
    ∀ n : Nat, ∃ made : List Call,
      (∀ journal, (checkLimits prf.width request.rounds n journal).1 = .ok () →
        made.length = (n + prf.width - 1) / prf.width * request.rounds.toNat) ∧
      (∀ journal, (checkLimits prf.width request.rounds n journal).1 ≠ .ok () → made = []) ∧
      ∀ (expected : Bytes) (journal : Journal), expected.length = n →
        (verify prf expected request journal).2.calls.toList = journal.calls.toList ++ made := by
  refine ⟨fun expected buffer journal journal' => ?_, fun n journal haccepted => ?_,
    fun expected front journal journal' hok hfront hne => ?_, fun n => ?_⟩
  · intro checked key status
    cases h : limitFault? prf.width request.rounds expected.length with
    | some fault =>
      have hchecked : checked = .error (.limit fault) :=
        congrArg (fun check => (check journal).1) (checkLimits_of_fault h)
      have hstatus : status = .error (.limit fault) := status_verify_of_fault h
      rw [hchecked, hstatus]
      exact ⟨iff_of_false nofun nofun, iff_of_false nofun nofun, fun error => id⟩
    | none =>
      have hchecked : checked = .ok () := checkLimits_eq_ok_iff.mpr h
      have hstatus : status = if expected = key.toList then .ok () else .error .mismatch :=
        status_verify_of_none h buffer journal'
      rw [hchecked, ← ne_toList_iff]
      by_cases hkey : expected = key.toList
      · rw [hstatus, if_pos hkey]
        exact ⟨iff_of_true rfl ⟨rfl, hkey⟩, iff_of_false nofun fun h => h.2 hkey, nofun⟩
      · rw [hstatus, if_neg hkey]
        exact ⟨iff_of_false nofun fun h => hkey h.2, iff_of_true rfl ⟨rfl, hkey⟩, nofun⟩
  · have hlimits := limitFault?_eq_none_of_checkLimits haccepted
    refine ⟨_, Prf.length_key prf.width_pos request.password
      (fun i => firstPieces request.salt (UInt32.ofNat i)) request.rounds.toNat n, ?_⟩
    rintro expected journal' rfl
    rw [status_verify_eq_ok_iff, BlockPrf.answer_eq_ok_iff]
    exact and_iff_right hlimits
  · have hanswer := status_verify_eq_ok_iff.mp hok
    have htake := BlockPrf.answer_take hanswer (List.length_pos_iff.mpr hne) hfront.length_le
    rw [← List.prefix_iff_eq_take.mp hfront] at htake
    exact status_verify_eq_ok_iff.mpr htake
  · refine ⟨verificationCalls prf request n, fun journal haccepted => ?_,
      fun journal hrejected => ?_, ?_⟩
    · have hlimits := limitFault?_eq_none_of_checkLimits haccepted
      rw [verificationCalls, if_pos hlimits]
      exact length_callsOf_schedule prf.toPrf (limits_of_limitFault?_eq_none hlimits).1
    · rw [verificationCalls, if_neg (fun hlimits => hrejected (checkLimits_eq_ok_iff.mpr hlimits))]
    · rintro expected journal rfl
      exact toList_calls_verify prf request expected journal

/-- A key of one full block and the front of a second one, and the front of that key, which is cut
one byte after the first block. -/
theorem verify_accepts_derived_key_only_front :
    let request : Request := ⟨[0x70, 0x77], [0x73, 0x61, 0x6c, 0x74], 2⟩
    let expected : Bytes :=
      [0x38, 0x14, 0x62, 0x70, 0x19, 0xc9, 0x71, 0x4f, 0x6d, 0xe4, 0xda, 0x2b]
    let front := expected.take 9
    ((checkLimits checksumPrf.width request.rounds 12 .empty).1 = .ok () ∧
      ∃ key : Bytes, key.length = 12 ∧ ∀ (expected : Bytes) (journal' : Journal),
        expected.length = 12 →
          ((verify checksumPrf expected request journal').1 = .ok () ↔ expected = key)) ∧
    ((verify checksumPrf expected request .empty).1 = .ok () ∧ front <+: expected ∧ front ≠ []) ∧
    (verify checksumPrf front request .empty).1 = .ok () :=
  have haccepted : (checkLimits checksumPrf.width 2 12 .empty).1 = .ok () := rfl
  have hok : (verify checksumPrf
      [0x38, 0x14, 0x62, 0x70, 0x19, 0xc9, 0x71, 0x4f, 0x6d, 0xe4, 0xda, 0x2b]
      ⟨[0x70, 0x77], [0x73, 0x61, 0x6c, 0x74], 2⟩ .empty).1 = .ok () := rfl
  have hfront := List.take_prefix 9
    ([0x38, 0x14, 0x62, 0x70, 0x19, 0xc9, 0x71, 0x4f, 0x6d, 0xe4, 0xda, 0x2b] : Bytes)
  have hall := verify_accepts_derived_key_only checksumPrf
    ⟨[0x70, 0x77], [0x73, 0x61, 0x6c, 0x74], 2⟩
  ⟨⟨haccepted, hall.2.1 12 .empty haccepted⟩, ⟨hok, hfront, by decide⟩,
    hall.2.2.1 _ _ .empty .empty hok hfront (by decide)⟩

end KeyDerivation
