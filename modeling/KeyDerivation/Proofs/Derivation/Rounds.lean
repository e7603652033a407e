import KeyDerivation.Proofs.Derivation.Position

/-!
# What one more round does to a key

The rounds of a block add up by exclusive or, and every round takes its message from the one
before. So a derivation that is asked for one more round goes through the same links as before
and comes to one link more, the next one of each chain. Its key differs from the other one by
exactly these links (`KeyDerivation.BlockPrf.keyByte_succ`), and there is no difference exactly if
the bytes in use are zero in all of them.

The two keys come from two whole runs, of which the longer one may look at its flag where the
shorter one does not. What a run computes does not depend on the looks.
-/

namespace KeyDerivation

/-- The place of byte `j` in the block at position `i` tells both of them. -/
theorem div_mod_place {w i j : Nat} (hj : j < w) :
    (i * w + j) / w = i ∧ (i * w + j) % w = j := by
  rw [Nat.mul_comm, Nat.mul_add_mod, Nat.mul_add_div (Nat.zero_lt_of_lt hj), Nat.div_eq_of_lt hj,
    Nat.mod_eq_of_lt hj]
  exact ⟨Nat.add_zero i, rfl⟩

section Succ

variable (prf : BlockPrf) (request : Request)

/-- A request for one more round. -/
def Request.succRounds : Request := { request with rounds := request.rounds + 1 }

variable {request}

theorem Request.toNat_rounds_succRounds (hroom : request.rounds.toNat < 2 ^ 32 - 1) :
    request.succRounds.rounds.toNat = request.rounds.toNat + 1 := by
  rw [succRounds, UInt32.toNat_add]
  exact Nat.mod_eq_of_lt (by
    change request.rounds.toNat + 1 < 2 ^ 32
    omega)

/-- A request for one more round is within the same limits. -/
theorem limitFault?_succRounds {n : Nat} (hroom : request.rounds.toNat < 2 ^ 32 - 1)
    (hlimits : limitFault? prf.width request.rounds n = none) :
    limitFault? prf.width request.succRounds.rounds n = none := by
  obtain ⟨-, hpos, hmax⟩ := limits_of_limitFault?_eq_none hlimits
  refine limitFault?_eq_none (fun hzero => ?_) hpos hmax
  have hsucc := Request.toNat_rounds_succRounds hroom
  rw [hzero] at hsucc
  exact absurd hsucc (Nat.zero_ne_add_one _)

/-- **One more round** combines a byte of the key with the byte of the next link. -/
theorem BlockPrf.keyByte_succ (hroom : request.rounds.toNat < 2 ^ 32 - 1) (place : Nat) :
    prf.keyByte request.succRounds place =
      have inside := Nat.mod_lt place prf.width_pos
      prf.keyByte request place ^^^
        (prf.link request.password [request.salt, bigEndian 4 (place / prf.width + 1)]
          request.rounds.toNat)[place % prf.width] := by
  rw [keyByte, keyByte, Request.toNat_rounds_succRounds hroom]
  simp only [Request.succRounds, Prf.block_succ, Buffer.xor, Vector.getElem_zipWith]

end Succ

/-- **One more round changes a key by the next link of each chain, and by nothing else.**

At every place, the exclusive or of the two keys is the byte at the matching place of the link
that only the longer derivation has come to. Links are counted from zero, so the one numbered `c`
belongs to round `c + 1`. Hence the keys are the same exactly if these links are zero, apart from
bytes that the last segment has no room for. -/
theorem succ_rounds_xors_next_link (prf : BlockPrf) (request : Request) {n : Nat}
    (journal : Journal) (haccepted : (checkLimits prf.width request.rounds n journal).1 = .ok ())
    (hroom : request.rounds.toNat < 2 ^ 32 - 1) (buffer buffer' : Buffer n)
    (journal' : Journal) :
    let c := request.rounds.toNat
    let blocks := (n + prf.width - 1) / prf.width
    let next (i : Nat) := prf.link request.password [request.salt, bigEndian 4 i] c
    let key := (derive prf request buffer journal).1
    let key' := (derive prf { request with rounds := request.rounds + 1 } buffer' journal').1
    ((request.rounds + 1).toNat = c + 1 ∧ key.status = .ok () ∧ key'.status = .ok ()) ∧
    (∀ k (_ : k < n),
      have inside := Nat.mod_lt k prf.width_pos
      key'.buffer[k] ^^^ key.buffer[k] = (next (k / prf.width + 1))[k % prf.width]) ∧
    (key'.buffer = key.buffer ↔
      ∀ i < blocks, ∀ j (_ : j < prf.width), i * prf.width + j < n → (next (i + 1))[j] = 0) := by
  intro c blocks next key key'
  have hlimits := limitFault?_eq_none_of_checkLimits haccepted
  have hlimits' := limitFault?_succRounds prf hroom hlimits
  have hbyte : ∀ k (hk : k < n),
      have inside := Nat.mod_lt k prf.width_pos
      key'.buffer[k] ^^^ key.buffer[k] = (next (k / prf.width + 1))[k % prf.width] := by
    intro k hk
    have hkey : key.buffer[k] = _ := getElem_buffer_derive hlimits buffer journal hk
    have hkey' : key'.buffer[k] = _ := getElem_buffer_derive hlimits' buffer' journal' hk
    -- The byte of the shorter derivation is in both, and drops out.
    rw [hkey, hkey', prf.keyByte_succ hroom, UInt8.xor_comm, ← UInt8.xor_assoc, UInt8.xor_self,
      UInt8.zero_xor]
  refine ⟨⟨Request.toNat_rounds_succRounds hroom, status_derive hlimits buffer journal,
    status_derive hlimits' buffer' journal'⟩, hbyte, ?_⟩
  constructor
  · intro hsame i _ j hj hplace
    have hdiff := hbyte (i * prf.width + j) hplace
    obtain ⟨hblock, hin⟩ := div_mod_place (i := i) hj
    rw [hsame, UInt8.xor_self] at hdiff
    simp only [hblock, hin] at hdiff
    exact hdiff.symm
  · intro hzero
    refine Vector.ext fun k hk => ?_
    have hplace : k / prf.width * prf.width + k % prf.width < n := by
      rwa [Nat.div_add_mod']
    have hnext := hzero (k / prf.width) (Segment.div_lt_count prf.width_pos hk) (k % prf.width)
      (Nat.mod_lt k prf.width_pos) hplace
    exact UInt8.xor_eq_zero_iff.mp ((hbyte k hk).trans hnext)

/-- From 1023 rounds to 1024, so that only the longer derivation looks at its flag inside a block,
with a last block that is cut. -/
theorem succ_rounds_xors_next_link_poll :
    let request : Request := ⟨[0x70, 0x77], [0x73, 0x61, 0x6c, 0x74], 1023⟩
    let next (i : Nat) := checksumPrf.link request.password [request.salt, bigEndian 4 i] 1023
    let key := (derive checksumPrf request (.zeros 20) .empty).1
    let key' := (derive checksumPrf { request with rounds := request.rounds + 1 }
      (Vector.replicate 20 0xaa : Buffer 20) .empty).1
    ((checkLimits checksumPrf.width request.rounds 20 .empty).1 = .ok () ∧
      request.rounds.toNat < 2 ^ 32 - 1) ∧
    ((request.rounds + 1).toNat = 1024 ∧ key.status = .ok () ∧ key'.status = .ok ()) ∧
    (∀ k (_ : k < 20),
      have inside := Nat.mod_lt k checksumPrf.width_pos
      key'.buffer[k] ^^^ key.buffer[k] =
        (next (k / checksumPrf.width + 1))[k % checksumPrf.width]) ∧
    (key'.buffer = key.buffer ↔
      ∀ i < 3, ∀ j (_ : j < checksumPrf.width), i * checksumPrf.width + j < 20 →
        (next (i + 1))[j] = 0) :=
  have haccepted : (checkLimits checksumPrf.width 1023 20 .empty).1 = .ok () := rfl
  ⟨⟨haccepted, by decide⟩, succ_rounds_xors_next_link checksumPrf
    ⟨[0x70, 0x77], [0x73, 0x61, 0x6c, 0x74], 1023⟩ .empty haccepted (by decide)
    (.zeros 20) (Vector.replicate 20 0xaa) .empty⟩

end KeyDerivation
