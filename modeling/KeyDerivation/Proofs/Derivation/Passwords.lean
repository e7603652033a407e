import KeyDerivation.Proofs.Derivation.Answer

/-!
# Passwords that stand for each other

A derivation uses its password as a key and for nothing else, so it cannot tell two passwords
apart if the pseudorandom function cannot tell them apart as keys
(`KeyDerivation.interchangeable_of_value`). With HMAC there are such passwords. A key is made
one block long before anything else: a short one is filled up with zeros, so that zeros at
its end are lost, and a long one is replaced by its digest.

`KeyDerivation.Interchangeable` is what this means for passwords: derivations that differ in
them only end alike, whatever the salt, the rounds and the length of the key. A key derived
from one of them is then accepted for the other (`KeyDerivation.Interchangeable.verify_derive`).
-/

namespace KeyDerivation

/-- **Two passwords are interchangeable** if derivations from either end alike: with the same
status, and with the same bytes in the buffer. -/
def Interchangeable (prf : BlockPrf) (password password' : Bytes) : Prop :=
  ∀ (salt : Bytes) (rounds : UInt32) (n : Nat) (buffer : Buffer n) (journal journal' : Journal),
    (derive prf ⟨password, salt, rounds⟩ buffer journal).1 =
      (derive prf ⟨password', salt, rounds⟩ buffer journal').1

section Value

variable {prf : BlockPrf} {password password' : Bytes}

/-- Two keys that no output tells apart give the same chains. -/
theorem link_congr_key (h : ∀ pieces, prf.value password pieces = prf.value password' pieces)
    (pieces : List Bytes) (j : Nat) :
    prf.link password pieces j = prf.link password' pieces j := by
  induction j with
  | zero => exact h pieces
  | succ j ih => rw [Prf.link, Prf.link, ih, h]

theorem block_congr_key (h : ∀ pieces, prf.value password pieces = prf.value password' pieces)
    (pieces : List Bytes) (rounds : Nat) :
    prf.block password pieces rounds = prf.block password' pieces rounds := by
  rw [Prf.block, Prf.block, funext (link_congr_key h pieces)]

/-- **Passwords that no output tells apart as keys are interchangeable.** -/
theorem interchangeable_of_value
    (h : ∀ pieces, prf.value password pieces = prf.value password' pieces) :
    Interchangeable prf password password' := by
  intro salt rounds n buffer journal journal'
  cases hfault : limitFault? prf.width rounds n with
  | some fault =>
    rw [derive_of_fault hfault, derive_of_fault hfault]
  | none =>
    rw [derive_apply hfault, derive_apply hfault]
    simp only [written, block_congr_key h]

/-- Interchangeable passwords form classes. In particular a derivation does not depend on what
has happened before it. -/
theorem equivalence_interchangeable (prf : BlockPrf) : Equivalence (Interchangeable prf) where
  refl _ := interchangeable_of_value fun _ => rfl
  symm h salt rounds n buffer journal journal' := (h salt rounds n buffer journal' journal).symm
  trans h h' salt rounds n buffer journal journal' :=
    (h salt rounds n buffer journal journal').trans (h' salt rounds n buffer journal' journal')

/-- **A key derived from a password is accepted for every one that is interchangeable with
it.** -/
theorem Interchangeable.verify_derive (h : Interchangeable prf password password') (salt : Bytes)
    (rounds : UInt32) {n : Nat} (buffer : Buffer n) (journal journal' : Journal) :
    let outcome := (derive prf ⟨password, salt, rounds⟩ buffer journal).1
    outcome.status = .ok () →
      (verify prf outcome.buffer.toList ⟨password', salt, rounds⟩ journal').1 = .ok () := by
  intro outcome hok
  have hanswer : prf.answer ⟨password', salt, rounds⟩ n = .ok outcome.buffer.toList := by
    rw [← answer_derive buffer journal', ← h salt rounds n buffer journal journal',
      Outcome.answer, hok]
    rfl
  rw [verify_eq_answer, Vector.length_toList, hanswer]
  exact if_pos rfl

end Value

/-! ### HMAC -/

section Hmac

variable (hash : StreamingHash) (hpos : 0 < hash.digestLength) {password password' : Bytes}

/-- Passwords that are the same as one block are interchangeable. -/
theorem interchangeable_of_preparedKey
    (h : Hmac.preparedKey hash password = Hmac.preparedKey hash password') :
    Interchangeable (Hmac.blockPrf hash hpos) password password' := by
  refine interchangeable_of_value fun pieces => ?_
  have hstart : (Hmac.prf hash).start password = (Hmac.prf hash).start password' :=
    Hmac.start_congr hash h
  -- The password is used in starting a context, and nowhere else.
  change (Hmac.prf hash).value password pieces = (Hmac.prf hash).value password' pieces
  rw [Prf.value, Prf.value, Prf.context, Prf.context, hstart]

theorem interchangeable_append_zeros {zeros : Nat}
    (h : password.length + zeros ≤ hash.blockLength) :
    Interchangeable (Hmac.blockPrf hash hpos) (password ++ List.replicate zeros 0) password :=
  interchangeable_of_preparedKey hash hpos (Hmac.preparedKey_append_zeros hash h)

theorem interchangeable_value (h : hash.blockLength < password.length) :
    Interchangeable (Hmac.blockPrf hash hpos) (hash.value password).toList password :=
  interchangeable_of_preparedKey hash hpos (Hmac.preparedKey_value hash h)

end Hmac

/-- **The passwords that HMAC takes for one another.** With any of the three hash functions in
use, zeros at the end of a password make no difference as long as it does not become longer
than a block, and a password longer than a block can be replaced by its digest. Passwords that
are linked by such steps are interchangeable, and a key derived from one of them is accepted
for the other. -/
theorem hmac_password_classes {hash : IteratedHash} {prf : BlockPrf}
    (hused : (hash, prf) ∈ [(sha1, hmacSha1), (sha256, hmacSha256), (sha512, hmacSha512)]) :
    (∀ (password : Bytes) (zeros : Nat), password.length + zeros ≤ hash.blockLength →
      Interchangeable prf (password ++ List.replicate zeros 0) password) ∧
    (∀ password : Bytes, hash.blockLength < password.length →
      Interchangeable prf (hash.value password).toList password) ∧
    Equivalence (Interchangeable prf) ∧
    ∀ password password' : Bytes, Interchangeable prf password password' →
      ∀ (salt : Bytes) (rounds : UInt32) (n : Nat) (buffer : Buffer n) (journal journal' : Journal),
        let outcome := (derive prf ⟨password, salt, rounds⟩ buffer journal).1
        outcome.status = .ok () →
          (verify prf outcome.buffer.toList ⟨password', salt, rounds⟩ journal').1 = .ok () := by
  simp only [List.mem_cons, Prod.mk.injEq, List.not_mem_nil, or_false] at hused
  have hclasses : (∀ (password : Bytes) (zeros : Nat), password.length + zeros ≤ hash.blockLength →
        Interchangeable prf (password ++ List.replicate zeros 0) password) ∧
      ∀ password : Bytes, hash.blockLength < password.length →
        Interchangeable prf (hash.value password).toList password := by
    rcases hused with ⟨rfl, rfl⟩ | ⟨rfl, rfl⟩ | ⟨rfl, rfl⟩
    · exact ⟨fun _ _ => interchangeable_append_zeros .sha1 _,
        fun _ => interchangeable_value .sha1 _⟩
    · exact ⟨fun _ _ => interchangeable_append_zeros .sha256 _,
        fun _ => interchangeable_value .sha256 _⟩
    · exact ⟨fun _ _ => interchangeable_append_zeros .sha512 _,
        fun _ => interchangeable_value .sha512 _⟩
  exact ⟨hclasses.1, hclasses.2, equivalence_interchangeable prf,
    fun password password' h salt rounds n buffer journal journal' =>
      h.verify_derive salt rounds buffer journal journal'⟩

/-- SHA-256, at the boundary: a password that four zeros fill up to one block, and one that is
one byte longer than a block. A key of two blocks that was derived from the first one is
accepted without the zeros. -/
theorem hmac_password_classes_sha256 :
    let short : Bytes := List.replicate 60 0x61
    let filled : Bytes := short ++ List.replicate 4 0
    let long : Bytes := List.replicate 65 0x61
    let outcome := (derive hmacSha256 ⟨filled, [0x73, 0x61, 0x6c, 0x74], 2⟩ (.zeros 40) .empty).1
    ((sha256, hmacSha256) ∈ [(sha1, hmacSha1), (sha256, hmacSha256), (sha512, hmacSha512)] ∧
      short.length + 4 ≤ sha256.blockLength ∧ sha256.blockLength < long.length ∧
      outcome.status = .ok ()) ∧
    Interchangeable hmacSha256 filled short ∧
    Interchangeable hmacSha256 (sha256.value long).toList long ∧
    (verify hmacSha256 outcome.buffer.toList ⟨short, [0x73, 0x61, 0x6c, 0x74], 2⟩ .empty).1 =
      .ok () := by
  intro short filled long outcome
  have hused : (sha256, hmacSha256) ∈
      [(sha1, hmacSha1), (sha256, hmacSha256), (sha512, hmacSha512)] :=
    List.mem_cons_of_mem _ List.mem_cons_self
  have hroom : short.length + 4 ≤ sha256.blockLength := by decide
  have hlong : sha256.blockLength < long.length := by decide
  have hlimits : limitFault? hmacSha256.width 2 40 = none := rfl
  have hok : outcome.status = .ok () := by
    rw [show outcome = _ from congrArg Prod.fst (derive_apply hlimits _ _)]
  obtain ⟨hzeros, hdigest, -, hverify⟩ := hmac_password_classes hused
  exact ⟨⟨hused, hroom, hlong, hok⟩, hzeros short 4 hroom, hdigest long hlong,
    hverify filled short (hzeros short 4 hroom) _ 2 40 _ .empty .empty hok⟩

end KeyDerivation
