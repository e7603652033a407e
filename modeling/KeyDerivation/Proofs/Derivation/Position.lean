import KeyDerivation.Fnv
import KeyDerivation.Proofs.Derivation.Key

/-!
# A key byte by byte

A key is cut from its blocks, and where it is cut depends on its length. The byte at a given
place does not: it is the byte at the matching place of the block that the place falls in
(`KeyDerivation.BlockPrf.keyByte`), in every key that reaches so far. So a key is the front of
every longer one that is derived from the same request, although the longer one has more blocks,
and although the last block of the shorter one may be a full one of the longer.

Nothing is asked of the pseudorandom function here but that its outputs are blocks. It may mind
pieces, since the pieces that a block begins with do not depend on the length either.
-/

namespace KeyDerivation

/-! ### The bytes of the blocks, one after the other -/

namespace Prf

variable {prf : Prf} (hpos : 0 < prf.width) (password : Bytes) (pieces : Nat → List Bytes)
  (rounds : Nat)

include hpos

theorem length_key (n : Nat) : (prf.key password pieces rounds n).length = n := by
  have hcover := Segment.le_count_mul (n := n) hpos
  rw [Segment.count] at hcover
  rw [key, List.length_take, length_joined, List.length_map, List.length_range]
  exact Nat.min_eq_left hcover

/-- **The byte at a place of a key** is the one at the matching place of the block that the place
falls in. -/
theorem getElem_key {n k : Nat} (hk : k < (prf.key password pieces rounds n).length) :
    (prf.key password pieces rounds n)[k] =
      have inside := Nat.mod_lt k hpos
      (prf.block password (pieces (k / prf.width + 1)) rounds)[k % prf.width] := by
  have hblock : k / prf.width < (n + prf.width - 1) / prf.width :=
    Segment.div_lt_count hpos (by rwa [length_key hpos] at hk)
  have hplace := Nat.div_add_mod' k prf.width
  have hjoined := getElem_joined
    ((List.range ((n + prf.width - 1) / prf.width)).map fun i =>
      prf.block password (pieces (i + 1)) rounds)
    (i := k / prf.width) (j := k % prf.width) (by simpa using hblock) (Nat.mod_lt k hpos) (by
      rw [hplace]
      rw [key, List.length_take] at hk
      omega)
  simp only [hplace, List.getElem_map, List.getElem_range] at hjoined
  simp only [key, List.getElem_take]
  exact hjoined

/-- **A key is the front of every longer one.** -/
theorem take_key {m n : Nat} (hle : m ≤ n) :
    (prf.key password pieces rounds n).take m = prf.key password pieces rounds m := by
  refine List.ext_getElem ?_ fun k _ _ => ?_
  · rw [List.length_take, length_key hpos, length_key hpos, Nat.min_eq_left hle]
  · rw [List.getElem_take, getElem_key hpos, getElem_key hpos]

end Prf

/-! ### The bytes of a derived key -/

/-- **The byte at a place of every key** derived from a request: no length is needed to say what
it is. -/
def BlockPrf.keyByte (prf : BlockPrf) (request : Request) (place : Nat) : UInt8 :=
  have inside := Nat.mod_lt place prf.width_pos
  (prf.block request.password [request.salt, bigEndian 4 (place / prf.width + 1)]
    request.rounds.toNat)[place % prf.width]

section Derive

variable {n : Nat} {prf : BlockPrf} {request : Request}

/-- **The buffer holds the bytes of the key**, each at its place. -/
theorem getElem_buffer_derive (hlimits : limitFault? prf.width request.rounds n = none)
    (buffer : Buffer n) (journal : Journal) {k : Nat} (hk : k < n) :
    (derive prf request buffer journal).1.buffer[k] = prf.keyByte request k := by
  -- The number of the block fits in four bytes, as those of all blocks do.
  have hcount := count_lt_of_limitFault?_eq_none hlimits
  have hblock := Segment.div_lt_count prf.width_pos hk
  have hkey := toList_buffer_derive hlimits buffer journal
  rw [← Vector.getElem_toList (by rwa [Vector.length_toList])]
  simp only [hkey, Prf.getElem_key prf.width_pos]
  simp only [firstPieces_ofNat request.salt (show k / prf.width + 1 < 2 ^ 32 by omega)]
  rfl

end Derive

/-- **A key is the front of every longer one**, for any pseudorandom function at all, also for
one that minds pieces. The byte at a place is the same in both, and it follows from the request
and the place: from the block that the place falls in, whether the buffer has room for all of
that block or not. -/
theorem shorter_key_eq_take_longer {prf : BlockPrf} {request : Request} {m n : Nat}
    (hrounds : request.rounds ≠ 0) (hpos : 1 ≤ m) (hle : m ≤ n)
    (hmax : n ≤ (2 ^ 32 - 1) * prf.width) (shorter : Buffer m) (longer : Buffer n)
    (journal journal' : Journal) :
    let short := (derive prf request shorter journal).1
    let long := (derive prf request longer journal').1
    (short.status = .ok () ∧ long.status = .ok ()) ∧
    short.buffer.toList = long.buffer.toList.take m ∧
    (∀ k (_ : k < m), short.buffer[k] = prf.keyByte request k) ∧
    ∀ k (_ : k < n), long.buffer[k] = prf.keyByte request k := by
  intro short long
  have hnone : ∀ length, 1 ≤ length → length ≤ n →
      limitFault? prf.width request.rounds length = none := by
    intro length hone hlength
    exact limitFault?_eq_none_of_le_max hrounds hone (Nat.le_trans hlength hmax)
  have hshort := hnone m hpos hle
  have hlong := hnone n (Nat.le_trans hpos hle) (Nat.le_refl n)
  refine ⟨⟨status_derive hshort shorter journal, status_derive hlong longer journal'⟩, ?_,
    fun k hk => getElem_buffer_derive hshort shorter journal hk,
    fun k hk => getElem_buffer_derive hlong longer journal' hk⟩
  calc short.buffer.toList
    _ = prf.key request.password (fun i => firstPieces request.salt (UInt32.ofNat i))
          request.rounds.toNat m := toList_buffer_derive hshort shorter journal
    _ = (prf.key request.password (fun i => firstPieces request.salt (UInt32.ofNat i))
          request.rounds.toNat n).take m := (Prf.take_key prf.width_pos _ _ _ hle).symm
    _ = long.buffer.toList.take m := by
        rw [show long.buffer.toList = _ from toList_buffer_derive hlong longer journal']

/-- **A function that minds pieces**: the lower half of the checksum of the key and of all
pieces, each with its length in front of it. -/
def pieceChecksum : BlockPrf where
  width := 4
  Context := Bytes
  start key := key
  absorb text piece := text ++ UInt8.ofNat piece.length :: piece
  output text := .ofBytes (bigEndian 4 (Fnv.checksum text).toNat) (length_bigEndian _ _)

theorem not_streams_pieceChecksum : ¬pieceChecksum.Streams := fun h =>
  absurd (congrArg Vector.toList (h [] [] [0x61] [] [])) (by decide)

/-- A function that minds pieces, with a key that is cut in its second block and another one
that goes on to a third. -/
theorem shorter_key_eq_take_longer_pieces :
    let request : Request := ⟨[0x70, 0x77], [0x73, 0x61, 0x6c, 0x74], 3⟩
    let short := (derive pieceChecksum request (.zeros 6) .empty).1
    let long := (derive pieceChecksum request (Vector.replicate 10 0xaa : Buffer 10) .empty).1
    (¬pieceChecksum.Streams ∧ request.rounds ≠ 0 ∧ 1 ≤ 6 ∧ 6 ≤ 10 ∧
      10 ≤ (2 ^ 32 - 1) * pieceChecksum.width) ∧
    (short.status = .ok () ∧ long.status = .ok ()) ∧
    short.buffer.toList = long.buffer.toList.take 6 ∧
    (∀ k (_ : k < 6), short.buffer[k] = pieceChecksum.keyByte request k) ∧
    ∀ k (_ : k < 10), long.buffer[k] = pieceChecksum.keyByte request k :=
  ⟨⟨not_streams_pieceChecksum, by decide, by decide, by decide, by decide⟩,
    shorter_key_eq_take_longer (by decide) (by decide) (by decide) (by decide) _ _ _ _⟩

end KeyDerivation
