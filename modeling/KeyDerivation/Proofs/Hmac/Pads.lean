import KeyDerivation.Proofs.Hmac

/-!
# What the pads keep of a key

A keyed computation knows its key only as one block (`KeyDerivation.Hmac.start_congr`). This file is
about the other direction: all of that block can be read off the outer pad, and off the first block
of the inner hash as well. Masking a byte loses nothing of it, every byte of the block is masked,
and it stays where it was. So keys that differ as one block are told apart by either pad
(`KeyDerivation.Hmac.pad_inj`), and keys of one length that fit in a block do differ as one block
(`KeyDerivation.Hmac.zeroPadded_inj`).

The two pads are arrays of the same length as the key block, and they are filled together:
`KeyDerivation.Hmac.Pads.fill` goes over the places one by one, as far as a block of the hash
reaches, and leaves the places behind it as they were. After so many places, each array holds the
masked bytes below that place and zeros from there on (`KeyDerivation.Hmac.Pads.getElem_fill`).
-/

namespace KeyDerivation

namespace Hmac

/-! ### The walk over the key block -/

/-- **The two pads** while they are filled. -/
structure Pads where
  inner : Buffer maxBlockLength
  outer : Buffer maxBlockLength

namespace Pads

/-- The pads before the first place. -/
def blank : Pads := ⟨.zeros maxBlockLength, .zeros maxBlockLength⟩

/-- Masks one byte of the key block into the same place of both pads, if there is such a place. -/
def maskAt (block : Buffer maxBlockLength) (place : Nat) (pads : Pads) : Pads :=
  if inside : place < maxBlockLength then
    { inner := pads.inner.set place (block[place] ^^^ 0x36) inside
      outer := pads.outer.set place (block[place] ^^^ 0x5c) inside }
  else pads

/-- **The pads after the first `count` places** of the key block. -/
def fill (block : Buffer maxBlockLength) : (count : Nat) → Pads
  | 0 => blank
  | count + 1 => maskAt block count (fill block count)

variable (block : Buffer maxBlockLength) {i : Nat}

/-- One place of the walk changes that place of the pads, and no other. -/
theorem getElem_maskAt (place : Nat) (pads : Pads) (hi : i < maxBlockLength) :
    (maskAt block place pads).inner[i] =
        (if i = place then block[i] ^^^ 0x36 else pads.inner[i]) ∧
      (maskAt block place pads).outer[i] =
        if i = place then block[i] ^^^ 0x5c else pads.outer[i] := by
  unfold maskAt
  split
  · by_cases hplace : i = place
    · subst hplace
      simp
    · simp [hplace, Ne.symm hplace]
  · have hplace : i ≠ place := by omega
    simp [hplace]

/-- **The invariant of the walk**: the places that it has come by hold their masked bytes, and all
others are still zero. -/
theorem getElem_fill (count : Nat) (hi : i < maxBlockLength) :
    (fill block count).inner[i] = (if i < count then block[i] ^^^ 0x36 else 0) ∧
      (fill block count).outer[i] = if i < count then block[i] ^^^ 0x5c else 0 := by
  induction count with
  | zero => simp [fill, blank, Buffer.zeros]
  | succ count ih =>
    obtain ⟨hinner, houter⟩ := ih
    obtain ⟨hinner', houter'⟩ := getElem_maskAt block count (fill block count) hi
    rw [fill, hinner', houter', hinner, houter]
    rcases Nat.lt_trichotomy i count with hlt | heq | hgt
    · simp only [if_neg (Nat.ne_of_lt hlt), if_pos hlt, if_pos (Nat.lt_succ_of_lt hlt), and_self]
    · have hreached : i < count + 1 := by omega
      simp only [if_pos heq, if_pos hreached, and_self]
    · have hbehind : ¬i < count + 1 := by omega
      simp only [if_neg (Nat.ne_of_gt hgt), if_neg (Nat.lt_asymm hgt), if_neg hbehind, and_self]

end Pads

variable (hash : StreamingHash)

/-- **The walk as far as a block reaches** gives both pads. -/
theorem fill_keyBlock (key : Bytes) :
    Pads.fill (keyBlock hash key) hash.blockLength = ⟨pad hash 0x36 key, pad hash 0x5c key⟩ := by
  have hinner : (Pads.fill (keyBlock hash key) hash.blockLength).inner = pad hash 0x36 key := by
    refine Vector.ext fun i hi => ?_
    rw [(Pads.getElem_fill (keyBlock hash key) hash.blockLength hi).1, pad, Vector.getElem_mapIdx]
  have houter : (Pads.fill (keyBlock hash key) hash.blockLength).outer = pad hash 0x5c key := by
    refine Vector.ext fun i hi => ?_
    rw [(Pads.getElem_fill (keyBlock hash key) hash.blockLength hi).2, pad, Vector.getElem_mapIdx]
  rw [← hinner, ← houter]

/-! ### Nothing of the block is lost -/

section Injective

variable {key key' : Bytes}

theorem map_xor_inj (mask : UInt8) {bytes bytes' : Bytes} :
    bytes.map (· ^^^ mask) = bytes'.map (· ^^^ mask) ↔ bytes = bytes' := by
  refine List.map_inj_right fun k k' h => ?_
  exact (UInt8.xor_left_inj mask).mp h

/-- **A pad tells keys apart** exactly if they differ as one block. -/
theorem pad_inj (mask : UInt8) :
    pad hash mask key = pad hash mask key' ↔ preparedKey hash key = preparedKey hash key' := by
  constructor
  · intro h
    have hfront := congrArg (fun array => array.toList.take hash.blockLength) h
    simp only [take_pad] at hfront
    exact (map_xor_inj mask).mp hfront
  · intro h
    rw [pad, pad, keyBlock_congr hash h]

/-- **The first block of the inner hash tells keys apart** exactly if they differ as one block. -/
theorem innerBlock_inj :
    innerBlock hash key = innerBlock hash key' ↔ preparedKey hash key = preparedKey hash key' := by
  rw [innerBlock, innerBlock, take_pad, take_pad, map_xor_inj]

/-- Filled up with zeros, byte strings of one length stay as different as they were. -/
theorem zeroPadded_inj {n : Nat} (hlength : key.length = key'.length) :
    zeroPadded n key = zeroPadded n key' ↔ key = key' := by
  constructor
  · intro h
    exact List.append_inj_left h hlength
  · rintro rfl
    rfl

theorem preparedKey_of_le (h : key.length ≤ hash.blockLength) :
    preparedKey hash key = zeroPadded hash.blockLength key := if_pos h

end Injective

/-! ### The pads side by side -/

/-- **The two pads differ by the two masks**, at every place of a block. -/
theorem zipWith_xor_pads (key : Bytes) :
    List.zipWith (· ^^^ ·) (innerBlock hash key) (start hash key).outerBlock =
      List.replicate hash.blockLength (0x36 ^^^ 0x5c) := by
  have houter : (start hash key).outerBlock = (preparedKey hash key).map (· ^^^ 0x5c) :=
    take_pad hash 0x5c key
  rw [innerBlock, take_pad, houter, List.zipWith_map, List.zipWith_self]
  rw [List.eq_replicate_iff, List.length_map, length_preparedKey]
  refine ⟨rfl, fun b hb => ?_⟩
  obtain ⟨k, -, rfl⟩ := List.mem_map.mp hb
  -- The byte of the key is in both, and drops out.
  rw [UInt8.xor_comm k 0x36, UInt8.xor_assoc, ← UInt8.xor_assoc k, UInt8.xor_self, UInt8.zero_xor]

/-- Behind the block, a pad is zero. -/
theorem getElem_pad_of_le (mask : UInt8) (key : Bytes) {i : Nat} (hi : i < maxBlockLength)
    (hbehind : hash.blockLength ≤ i) : (pad hash mask key)[i] = 0 := by
  rw [pad, Vector.getElem_mapIdx, if_neg (Nat.not_lt.mpr hbehind)]

/-- **No byte of a key is lost in the pads.**

A context is started by one walk over the key block, as far as a block of the hash reaches. The
inner hash absorbs what the walk leaves in one array, and the other array is kept as the outer pad.

Two keys that fit in a block have the same outer pad exactly if they are the same once they are
filled up with zeros, and this also decides whether their inner blocks are the same. Keys of one
length are not filled up to the same block unless they are the same, also if they are as long as a
block. Whatever the key, the two pads differ by the two masks at every place of a block, and the
outer pad is zero behind it. A key longer than a block starts the same computation as its digest.

The bounds on the sizes of a hash function are part of its type, and one that breaks them cannot be
keyed at all. -/
theorem pads_keep_every_key_byte (hash : StreamingHash) :
    (∀ key : Bytes,
      let pads := Pads.fill (keyBlock hash key) hash.blockLength
      innerBlock hash key = pads.inner.toList.take hash.blockLength ∧
        start hash key = ⟨hash.absorb hash.start (innerBlock hash key), pads.outer⟩) ∧
    (∀ key key' : Bytes, key.length ≤ hash.blockLength → key'.length ≤ hash.blockLength →
      ((start hash key).outerPad = (start hash key').outerPad ↔
        zeroPadded hash.blockLength key = zeroPadded hash.blockLength key') ∧
      (innerBlock hash key = innerBlock hash key' ↔
        zeroPadded hash.blockLength key = zeroPadded hash.blockLength key')) ∧
    (∀ key key' : Bytes, key.length = key'.length → key.length ≤ hash.blockLength → key ≠ key' →
      (start hash key).outerPad ≠ (start hash key').outerPad ∧
        innerBlock hash key ≠ innerBlock hash key') ∧
    (∀ key : Bytes,
      List.zipWith (· ^^^ ·) (innerBlock hash key)
          ((start hash key).outerPad.toList.take hash.blockLength) =
        List.replicate hash.blockLength (0x36 ^^^ 0x5c) ∧
      ∀ i (_ : i < maxBlockLength), hash.blockLength ≤ i → (start hash key).outerPad[i] = 0) ∧
    ∀ key : Bytes, hash.blockLength < key.length →
      start hash key = start hash (hash.value key).toList := by
  refine ⟨?_, ?_, ?_, ?_, ?_⟩
  · intro key pads
    have hpads : pads = ⟨pad hash 0x36 key, pad hash 0x5c key⟩ := fill_keyBlock hash key
    rw [hpads]
    exact ⟨rfl, rfl⟩
  · intro key key' hkey hkey'
    rw [← preparedKey_of_le hash hkey, ← preparedKey_of_le hash hkey']
    exact ⟨pad_inj hash 0x5c, innerBlock_inj hash⟩
  · intro key key' hlength hkey hne
    have hblock : preparedKey hash key ≠ preparedKey hash key' := by
      rw [preparedKey_of_le hash hkey, preparedKey_of_le hash (hlength ▸ hkey)]
      exact fun h => hne ((zeroPadded_inj hlength).mp h)
    exact ⟨fun h => hblock ((pad_inj hash 0x5c).mp h), fun h => hblock ((innerBlock_inj hash).mp h)⟩
  · intro key
    exact ⟨zipWith_xor_pads hash key, fun i hi hbehind => getElem_pad_of_le hash 0x5c key hi hbehind⟩
  · intro key hlong
    exact (start_congr hash (preparedKey_value hash hlong)).symm

/-- SHA-256, at the boundary: two keys as long as a block that differ in their last byte only, one
that is a byte shorter than the block it is filled up to, and one that is a byte longer. -/
theorem pads_keep_every_key_byte_full_block :
    let full : Bytes := List.replicate 63 0x61 ++ [0]
    let changed : Bytes := List.replicate 63 0x61 ++ [1]
    let short : Bytes := List.replicate 63 0x61
    let long : Bytes := List.replicate 65 0x61
    (full.length = changed.length ∧ full.length ≤ StreamingHash.sha256.blockLength ∧
      short.length ≤ StreamingHash.sha256.blockLength ∧ full ≠ changed ∧
      StreamingHash.sha256.blockLength < long.length) ∧
    ((start .sha256 full).outerPad = (start .sha256 short).outerPad ↔
      zeroPadded 64 full = zeroPadded 64 short) ∧
    ((start .sha256 full).outerPad ≠ (start .sha256 changed).outerPad ∧
      innerBlock .sha256 full ≠ innerBlock .sha256 changed) ∧
    (start .sha256 full).outerPad[64] = 0 ∧
    start .sha256 long = start .sha256 (StreamingHash.sha256.value long).toList := by
  intro full changed short long
  have hfull : full.length ≤ StreamingHash.sha256.blockLength := by decide
  have hshort : short.length ≤ StreamingHash.sha256.blockLength := by decide
  have hne : full ≠ changed := by decide
  have hlong : StreamingHash.sha256.blockLength < long.length := by decide
  obtain ⟨-, hsame, hdifferent, hsides, hdigest⟩ := pads_keep_every_key_byte .sha256
  refine ⟨⟨rfl, hfull, hshort, hne, hlong⟩, ?_, ?_, ?_, ?_⟩
  · exact (hsame full short hfull hshort).1
  · exact hdifferent full changed rfl hfull hne
  · exact (hsides full).2 64 (by decide) (by decide)
  · exact hdigest long hlong

end Hmac

end KeyDerivation
