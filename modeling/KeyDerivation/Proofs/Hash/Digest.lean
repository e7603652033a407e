import KeyDerivation.Hash.Sha512
import KeyDerivation.Proofs.Hash.Compression
import KeyDerivation.Proofs.Hash.Streaming

/-!
# The digests of SHA-1, SHA-256 and SHA-512

A stream has the iterated hash of its message (`KeyDerivation.IteratedHash.digest_foldl_absorb`),
and this is the last chaining value, spelled in the way the hash function chooses. What is left to
say about the three functions is where they begin and how they spell:

* the first chaining value has the bits of the initial hash value of the standard
  (`KeyDerivation.Sha1.bits_initial`, and `bits_initial` of `KeyDerivation.Sha2.Follows`);
* a word is spelled as its bits, eight to a byte and the highest ones first
  (`KeyDerivation.Standard.bytes_ofNat`), and a chaining value as one word after the other
  (`KeyDerivation.Sha1.toList_spell`, `KeyDerivation.Sha2.toList_spell`).
-/

namespace KeyDerivation

open Word

/-! ### Spelling -/

/-- **The bytes of a string of bits** are the big-endian spelling of the number that it is. -/
theorem Standard.bytes_ofNat (k x : Nat) : bytes (BitVec.ofNat (8 * k) x) = bigEndian k x := by
  have hcount : 8 * k / 8 = k := Nat.mul_div_cancel_left k (by decide)
  refine List.ext_getElem (by simp [bytes, hcount]) fun i hi hi' => ?_
  rw [getElem_bigEndian]
  rw [length_bigEndian] at hi'
  simp only [bytes, List.getElem_ofFn]
  refine UInt8.toNat_inj.mp ?_
  -- In front of byte `i` there are `i` others, and behind it the `k - 1 - i` of lower value.
  have hbehind : 8 * k - 8 * (i + 1) = 8 * (k - 1 - i) := by omega
  have hsplit : 2 ^ (8 * k) = 256 ^ (k - 1 - i) * 256 ^ (i + 1) := by
    rw [← Nat.pow_add, Nat.pow_mul]
    congr 1
    omega
  calc (UInt8.ofBitVec ((BitVec.ofNat (8 * k) x).extractLsb' (8 * k - 8 * (i + 1)) 8)).toNat
    _ = x % 2 ^ (8 * k) / 256 ^ (k - 1 - i) % 256 := by
        rw [UInt8.toNat_ofBitVec, BitVec.extractLsb'_toNat, BitVec.toNat_ofNat,
          Nat.shiftRight_eq_div_pow, hbehind, Nat.pow_mul 2 8 (k - 1 - i)]
    _ = x / 256 ^ (k - 1 - i) % 256 ^ (i + 1) % 256 := by
        rw [hsplit, Nat.mod_mul_right_div_self]
    _ = x / 256 ^ (k - 1 - i) % 256 :=
        Nat.mod_mod_of_dvd _ (Dvd.intro_left _ (Nat.pow_succ 256 i).symm)
    _ = (UInt8.ofNat (x / 256 ^ (k - 1 - i))).toNat := UInt8.toNat_ofNat'.symm

theorem Word.bytes_bits {W : Type} [Word W] (x : W) : Standard.bytes (bits x) = toBytes x :=
  Standard.bytes_ofNat _ _

namespace Sha1

/-- The first chaining value of SHA-1 is that of the standard. -/
theorem bits_initial : initial.bits = Standard.sha1Initial := rfl

/-- **SHA-1 spells a chaining value** as the standard does. -/
theorem toList_spell (chain : Quintet) : (sha1.spell chain).toList = chain.bits.digest := by
  have hword (x : UInt32) : Standard.bytes x.toBitVec = toBytes x := by
    rw [← bits_uint32, bytes_bits]
  have hspell : (sha1.spell chain).toList = spell chain.toList :=
    Buffer.toList_ofBytes _ (length_spell _)
  rw [hspell]
  simp only [spell, Quintet.toList, Quintet.bits, Standard.Five.digest, hword, List.flatMap_cons,
    List.flatMap_nil, List.append_nil, List.append_assoc]

end Sha1

/-- **A member of the SHA-2 family spells a chaining value** as the standard does. -/
theorem Sha2.toList_spell {W : Type} [Word W] (family : Sha2 W) (chain : Octet W) :
    (family.toIteratedHash.spell chain).toList = chain.bits.digest := by
  have hspell : (family.toIteratedHash.spell chain).toList = spell chain.toList :=
    Buffer.toList_ofBytes _ (length_spell _)
  rw [hspell]
  simp only [spell, Octet.toList, Octet.bits, Standard.Eight.digest, bytes_bits,
    List.flatMap_cons, List.flatMap_nil, List.append_nil, List.append_assoc]

/-! ### The three hash functions -/

namespace IteratedHash

/-- **One digest, in whatever way it is asked for**: of the message in one piece, or of its pieces
into the front of a buffer. -/
theorem digest_of_pieces {hash : IteratedHash} {pieces : List Bytes} {digest : Bytes}
    (hdigest : (hash.iterated hash.initial pieces.flatten).toList = digest) {m : Nat}
    (out : Buffer m) :
    (hash.value pieces.flatten).toList = digest ∧
      ((pieces.foldl Stream.absorb (Stream.start : Stream hash)).finish? out).map (·.1.toList) =
        if hash.digestLength ≤ m then some (digest ++ out.toList.drop hash.digestLength)
        else none := by
  subst hdigest
  exact ⟨congrArg Vector.toList (value_eq_iterated pieces.flatten), finish?_foldl_absorb pieces out⟩

/-- **SHA-1, SHA-256 and SHA-512 in pieces.** For every message and every way of cutting it
into pieces, the digest is that of the padded message, block by block from the initial
value on. The hash of the message in one piece is the same. In a buffer the digest goes
to the front and the bytes behind it stay; a buffer too short for it is refused.

The initial value is the one of the standard, and the digest is spelled from the bits of the words:
one word after the other, and of each word eight bits a byte, the highest ones first. -/
theorem sha_digest_of_pieces (pieces : List Bytes) {m : Nat} (out : Buffer m) :
    (Sha1.initial.bits = Standard.sha1Initial ∧
      ∃ padded, IsPadded 64 8 pieces.flatten padded ∧
      let chain := (wholeBlocks 64 padded).foldl Sha1.compress Sha1.initial
      let digest := chain.bits.digest
      (sha1.value pieces.flatten).toList = digest ∧
      ((pieces.foldl Stream.absorb (Stream.start : Stream sha1)).finish? out).map (·.1.toList) =
        if 20 ≤ m then some (digest ++ out.toList.drop 20) else none) ∧
    (Sha256.family.initial.bits = Standard.sha256.initial ∧
      ∃ padded, IsPadded 64 8 pieces.flatten padded ∧
      let chain := (wholeBlocks 64 padded).foldl Sha256.family.compress Sha256.family.initial
      let digest := chain.bits.digest
      (sha256.value pieces.flatten).toList = digest ∧
      ((pieces.foldl Stream.absorb (Stream.start : Stream sha256)).finish? out).map (·.1.toList) =
        if 32 ≤ m then some (digest ++ out.toList.drop 32) else none) ∧
    (Sha512.family.initial.bits = Standard.sha512.initial ∧
      ∃ padded, IsPadded 128 16 pieces.flatten padded ∧
      let chain := (wholeBlocks 128 padded).foldl Sha512.family.compress Sha512.family.initial
      let digest := chain.bits.digest
      (sha512.value pieces.flatten).toList = digest ∧
      ((pieces.foldl Stream.absorb (Stream.start : Stream sha512)).finish? out).map (·.1.toList) =
        if 64 ≤ m then some (digest ++ out.toList.drop 64) else none) := by
  refine ⟨⟨Sha1.bits_initial, sha1.padded pieces.flatten, isPadded_padWith (by decide) _ _, ?_⟩,
    ⟨follows_sha256.bits_initial, sha256.padded pieces.flatten, isPadded_padWith (by decide) _ _,
      ?_⟩,
    ⟨follows_sha512.bits_initial, sha512.padded pieces.flatten, isPadded_padWith (by decide) _ _,
      ?_⟩⟩
  · exact @digest_of_pieces sha1 pieces _ (Sha1.toList_spell _) m out
  · exact @digest_of_pieces sha256 pieces _ (Sha256.family.toList_spell _) m out
  · exact @digest_of_pieces sha512 pieces _ (Sha512.family.toList_spell _) m out

end IteratedHash

end KeyDerivation
