import KeyDerivation.Proofs.Derivation.Answer
import KeyDerivation.Proofs.Derivation.Rejection

/-!
# Parameters stay valid for every wider function

Parameters are checked when they are made, for a pseudorandom function of some width, and they are
used later, perhaps with another function. They do not remember the width. What they keep of the
check is that there is a round and that the key is not empty, so that a later derivation can break
only one of the three limits (`KeyDerivation.Parameters.limitFault?_eq`): the key may be too long for
the function at hand. If that function is at least as wide as the one of the check, it is not.

Besides, the buffer has to be as long as the parameters say. This is looked at first, before any of
the limits, and on a buffer of the right length a derivation with parameters is one without.
-/

namespace KeyDerivation

namespace Parameters

/-! ### What parameters keep of their check -/

section Made

variable {width : Nat} {rounds : UInt32} {n : Nat} {journal : Journal} {parameters : Parameters}

/-- **Parameters are made** of a pair within the limits, and they are this pair. -/
theorem make_eq_ok_iff :
    (make width rounds n journal).1 = .ok parameters ↔
      limitFault? width rounds n = none ∧ parameters.rounds = rounds ∧
        parameters.keyLength = n := by
  cases h : limitFault? width rounds n with
  | some fault =>
    rw [make_of_fault h]
    exact iff_of_false nofun nofun
  | none =>
    rw [make_of_none h]
    rcases parameters with ⟨rounds', n', hrounds, hpos⟩
    constructor
    · intro hmade
      obtain ⟨rfl, rfl⟩ := Parameters.mk.inj (Except.ok.inj hmade)
      exact ⟨rfl, rfl, rfl⟩
    · rintro ⟨-, rfl, rfl⟩
      rfl

/-- Parameters are compared by the round count and the length. -/
theorem eq_iff {parameters other : Parameters} :
    parameters = other ↔
      parameters.rounds = other.rounds ∧ parameters.keyLength = other.keyLength := by
  rcases parameters with ⟨rounds, n, hrounds, hpos⟩
  rcases other with ⟨rounds', n', hrounds', hpos'⟩
  rw [Parameters.mk.injEq]

end Made

/-! ### What can still be wrong -/

section Derive

variable (parameters : Parameters) (prf : BlockPrf) (password salt : Bytes) (journal : Journal)

/-- **Only the length can still be wrong**, if the function is too narrow for it. -/
theorem limitFault?_eq :
    limitFault? prf.width parameters.rounds parameters.keyLength =
      if (2 ^ 32 - 1) * prf.width < parameters.keyLength then
        some (.keyTooLong parameters.keyLength ((2 ^ 32 - 1) * prf.width))
      else none := by
  rw [limitFault?_of_le prf.width_le_limit, if_neg parameters.rounds_ne_zero,
    if_neg (Nat.ne_of_gt parameters.keyLength_pos)]

/-- **The status of a derivation with parameters**: the key is too long for the function, or all is
well. -/
def statusWith : Except KdfError Unit :=
  if (2 ^ 32 - 1) * prf.width < parameters.keyLength then
    .error (.limit (.keyTooLong parameters.keyLength ((2 ^ 32 - 1) * prf.width)))
  else .ok ()

/-- The answer to a request with parameters has this status, whatever the password and the salt. -/
theorem map_answer_request :
    (prf.answer (parameters.request password salt) parameters.keyLength).map (fun _ => ()) =
      parameters.statusWith prf := by
  have hfault := parameters.limitFault?_eq prf
  unfold statusWith
  by_cases hlong : (2 ^ 32 - 1) * prf.width < parameters.keyLength
  · rw [if_pos hlong] at hfault
    rw [if_pos hlong, BlockPrf.answer_of_fault hfault]
    rfl
  · rw [if_neg hlong] at hfault
    rw [if_neg hlong, BlockPrf.answer_of_none hfault]
    rfl

/-- On a buffer of the configured length, a derivation with parameters is one without. -/
theorem derive_of_eq {n : Nat} (hn : n = parameters.keyLength) (buffer : Buffer n) :
    parameters.derive prf password salt buffer =
      KeyDerivation.derive prf (parameters.request password salt) buffer := if_pos hn

/-- **Any other buffer is refused**, and nothing happens besides. -/
theorem derive_of_ne {n : Nat} (hn : n ≠ parameters.keyLength) (buffer : Buffer n) :
    parameters.derive prf password salt buffer journal =
      (⟨.error (.lengthMismatch parameters.keyLength n), buffer⟩, journal) := by
  rw [derive, if_neg hn]
  rfl

theorem status_derive (buffer : Buffer parameters.keyLength) :
    (parameters.derive prf password salt buffer journal).1.status =
      parameters.statusWith prf := by
  have hanswer : (parameters.derive prf password salt buffer journal).1.answer =
      prf.answer (parameters.request password salt) parameters.keyLength := by
    rw [derive_of_eq parameters prf password salt rfl]
    exact answer_derive buffer journal
  rw [← map_answer_request parameters prf password salt, ← hanswer, Outcome.answer]
  cases (parameters.derive prf password salt buffer journal).1.status <;> rfl

theorem map_deriveKey :
    (parameters.deriveKey prf password salt journal).1.map (fun _ => ()) =
      parameters.statusWith prf := by
  have hanswer : (parameters.deriveKey prf password salt journal).1.map Vector.toList =
      prf.answer (parameters.request password salt) parameters.keyLength := by
    rw [deriveKey, deriveKey_eq_deriveFresh]
    exact answer_deriveFresh journal
  rw [← map_answer_request parameters prf password salt, ← hanswer]
  cases (parameters.deriveKey prf password salt journal).1 <;> rfl

/-- A buffer is refused for its length exactly if it has another length. -/
theorem status_derive_eq_lengthMismatch_iff {n : Nat} (buffer : Buffer n) {expected actual : Nat} :
    (parameters.derive prf password salt buffer journal).1.status =
        .error (.lengthMismatch expected actual) ↔
      n ≠ parameters.keyLength ∧ expected = parameters.keyLength ∧ actual = n := by
  by_cases hn : n = parameters.keyLength
  · subst hn
    rw [status_derive, statusWith]
    refine iff_of_false ?_ fun h => h.1 rfl
    split <;> exact nofun
  · rw [derive_of_ne parameters prf password salt journal hn, Except.error.injEq,
      KdfError.lengthMismatch.injEq]
    constructor
    · rintro ⟨rfl, rfl⟩
      exact ⟨hn, rfl, rfl⟩
    · rintro ⟨-, rfl, rfl⟩
      exact ⟨rfl, rfl⟩

end Derive

/-! ### Which of the two it is -/

section Status

variable {parameters : Parameters} {prf : BlockPrf}

/-- If anything is wrong, it is the length. -/
theorem eq_keyTooLong_of_statusWith {error : KdfError}
    (h : parameters.statusWith prf = .error error) :
    error = .limit (.keyTooLong parameters.keyLength ((2 ^ 32 - 1) * prf.width)) := by
  unfold statusWith at h
  split at h
  · exact (Except.error.inj h).symm
  · exact absurd h nofun

theorem statusWith_eq_keyTooLong_iff {requested most : Nat} :
    parameters.statusWith prf = .error (.limit (.keyTooLong requested most)) ↔
      (2 ^ 32 - 1) * prf.width < parameters.keyLength ∧
        requested = parameters.keyLength ∧ most = (2 ^ 32 - 1) * prf.width := by
  unfold statusWith
  by_cases hlong : (2 ^ 32 - 1) * prf.width < parameters.keyLength
  · rw [if_pos hlong, Except.error.injEq, KdfError.limit.injEq, LimitFault.keyTooLong.injEq]
    grind
  · rw [if_neg hlong]
    exact iff_of_false nofun fun h => hlong h.1

theorem statusWith_eq_ok_iff :
    parameters.statusWith prf = .ok () ↔ parameters.keyLength ≤ (2 ^ 32 - 1) * prf.width := by
  unfold statusWith
  by_cases hlong : (2 ^ 32 - 1) * prf.width < parameters.keyLength
  · rw [if_pos hlong]
    exact iff_of_false nofun (Nat.not_le.mpr hlong)
  · rw [if_neg hlong]
    exact iff_of_true rfl (Nat.not_lt.mp hlong)

end Status

/-- **Parameters stay valid for every function that is at least as wide** as the one they were
checked for.

A buffer is refused exactly if it is not as long as they say. The error carries both lengths, the
buffer is as it was, and nothing has been called, looked at or logged, whatever else may be wrong.
On a buffer of the right length, a derivation with parameters is the one without them, with their
rounds.

Both into such a buffer and into a new one, a derivation ends with one and the same status. It is
not an error for no rounds or for an empty key, since parameters have neither. It is an error for a
key that is too long exactly if the key is longer than `2 ^ 32 - 1` blocks of the function at hand,
which cannot be if that function is as wide as the one of the check, or wider. And otherwise all is
well.

Parameters are the same exactly if they were made of the same rounds and the same length, whatever
functions they were checked for, and then every derivation with one of them is a derivation with
the other. -/
theorem made_parameters_stay_valid {width : Nat} (hwidth : width ≤ 2 ^ 32 + 1) {rounds : UInt32}
    {n : Nat} {journal : Journal} {parameters : Parameters}
    (hmade : (make width rounds n journal).1 = .ok parameters) (prf : BlockPrf)
    (password salt : Bytes) (journal' : Journal) :
    let max := (2 ^ 32 - 1) * prf.width
    let status := parameters.statusWith prf
    (∀ (m : Nat) (buffer : Buffer m),
      let run := parameters.derive prf password salt buffer journal'
      (∀ expected actual, run.1.status = .error (.lengthMismatch expected actual) ↔
        m ≠ n ∧ expected = n ∧ actual = m) ∧
      (m ≠ n → run.1.buffer = buffer ∧ run.2 = journal') ∧
      (m = n → run = KeyDerivation.derive prf ⟨password, salt, rounds⟩ buffer journal' ∧
        run.1.status = status)) ∧
    (parameters.deriveKey prf password salt journal').1.map (fun _ => ()) = status ∧
    (status ≠ .error (.limit .zeroRounds) ∧ status ≠ .error (.limit .emptyKey) ∧
      (∀ requested most, status = .error (.limit (.keyTooLong requested most)) ↔
        max < n ∧ requested = n ∧ most = max) ∧
      (status = .ok () ↔ n ≤ max) ∧
      (width ≤ prf.width → status = .ok ())) ∧
    ∀ (width' : Nat) (rounds' : UInt32) (n' : Nat) (journal'' : Journal) (other : Parameters),
      (make width' rounds' n' journal'').1 = .ok other →
        (parameters = other ↔ rounds = rounds' ∧ n = n') ∧
        (rounds = rounds' → n = n' →
          (∀ (m : Nat) (buffer : Buffer m),
            parameters.derive prf password salt buffer journal' =
              other.derive prf password salt buffer journal') ∧
          (parameters.deriveKey prf password salt journal').1.map Vector.toList =
            (other.deriveKey prf password salt journal').1.map Vector.toList ∧
          (parameters.deriveKey prf password salt journal').2 =
            (other.deriveKey prf password salt journal').2) := by
  obtain ⟨hlimits, rfl, rfl⟩ := make_eq_ok_iff.mp hmade
  intro max status
  refine ⟨fun m buffer => ⟨?_, ?_, ?_⟩, map_deriveKey parameters prf password salt journal',
    ⟨?_, ?_, fun _ _ => statusWith_eq_keyTooLong_iff, statusWith_eq_ok_iff, fun hwide => ?_⟩, ?_⟩
  · intro expected actual
    exact status_derive_eq_lengthMismatch_iff parameters prf password salt journal' buffer
  · intro hm
    rw [derive_of_ne parameters prf password salt journal' hm]
    exact ⟨rfl, rfl⟩
  · rintro rfl
    exact ⟨congrFun (derive_of_eq parameters prf password salt rfl buffer) journal',
      status_derive parameters prf password salt journal' buffer⟩
  · intro hzero
    exact absurd (eq_keyTooLong_of_statusWith hzero) nofun
  · intro hempty
    exact absurd (eq_keyTooLong_of_statusWith hempty) nofun
  · -- What was not too long for the function of the check is not too long for a wider one.
    have hchecked : parameters.keyLength ≤ (2 ^ 32 - 1) * width := by
      have hwithin := (limitFault?_eq_none_iff hwidth).mp hlimits
      omega
    exact statusWith_eq_ok_iff.mpr (Nat.le_trans hchecked (Nat.mul_le_mul_left _ hwide))
  · intro width' rounds' n' journal'' other hother
    obtain ⟨-, rfl, rfl⟩ := make_eq_ok_iff.mp hother
    refine ⟨eq_iff, fun hrounds hlength => ?_⟩
    obtain rfl := eq_iff.mpr ⟨hrounds, hlength⟩
    exact ⟨fun _ _ => rfl, rfl, rfl⟩

/-- Parameters of one byte more than eight-byte blocks can give. They were checked for a function of
64 bytes, so the checksum is too narrow for them, and HMAC-SHA-512 is not. With one more round they
are others, although these were checked for a function of another width. -/
theorem made_parameters_stay_valid_narrower :
    let long : Nat := 8 * (2 ^ 32 - 1) + 1
    let parameters : Parameters := ⟨2, long, by decide, by decide⟩
    let other : Parameters := ⟨3, long, by decide, by decide⟩
    ((make 64 2 long .empty).1 = .ok parameters ∧ (make 65 3 long .empty).1 = .ok other ∧
      20 ≠ long ∧ 64 ≤ hmacSha512.width) ∧
    (∀ buffer : Buffer 20,
      let run := parameters.derive checksumPrf [0x70, 0x77] [0x73] buffer .empty
      run.1.buffer = buffer ∧ run.2 = .empty) ∧
    (∀ buffer : Buffer long,
      (parameters.derive checksumPrf [0x70, 0x77] [0x73] buffer .empty).1.status =
        .error (.limit (.keyTooLong long (8 * (2 ^ 32 - 1))))) ∧
    (∀ buffer : Buffer long,
      (parameters.derive hmacSha512 [0x70, 0x77] [0x73] buffer .empty).1.status = .ok ()) ∧
    (parameters = other ↔ (2 : UInt32) = 3 ∧ long = long) := by
  intro long parameters other
  have hmade : (make 64 2 long .empty).1 = .ok parameters := make_eq_ok_iff.mpr ⟨rfl, rfl, rfl⟩
  have hother : (make 65 3 long .empty).1 = .ok other := make_eq_ok_iff.mpr ⟨rfl, rfl, rfl⟩
  have hne : 20 ≠ long := by decide
  have hwide : 64 ≤ hmacSha512.width := by decide
  obtain ⟨hnarrow, -, ⟨-, -, hlong, -⟩, hsame⟩ :=
    made_parameters_stay_valid (by decide) hmade checksumPrf [0x70, 0x77] [0x73] .empty
  obtain ⟨hinto, -, ⟨-, -, -, -, hvalid⟩, -⟩ :=
    made_parameters_stay_valid (by decide) hmade hmacSha512 [0x70, 0x77] [0x73] .empty
  refine ⟨⟨hmade, hother, hne, hwide⟩, fun buffer => ?_, fun buffer => ?_, fun buffer => ?_, ?_⟩
  · exact (hnarrow 20 buffer).2.1 hne
  · rw [((hnarrow long buffer).2.2 rfl).2]
    exact (hlong long _).mpr ⟨by decide, rfl, rfl⟩
  · rw [((hinto long buffer).2.2 rfl).2]
    exact hvalid hwide
  · exact (hsame 65 3 long .empty other hother).1

end Parameters

end KeyDerivation
