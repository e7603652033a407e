import KeyDerivation.Hmac
import KeyDerivation.Proofs.Hash.Streaming

/-!
# The keyed hash is the one of RFC 2104

The formula of RFC 2104 speaks of a whole message and of a key that has been made one
block long. `KeyDerivation.Hmac.nested` is that formula, over the hash of whole messages
only. A keyed computation differs from it in three ways, and none of them matters:

* the key is prepared in an array as long as the longest block there is, and cut to the
  block of the hash at hand (`KeyDerivation.Hmac.take_pad`);
* the inner hash absorbs its first block and the message in pieces
  (`KeyDerivation.StreamingHash.Streams.digest_absorbAll`);
* the tag goes to the front of a buffer that may be longer, or too short.

The tag itself is the one of the formula (`KeyDerivation.Hmac.tag_foldl_absorb`), and the
four ways to have a message tagged all come down to it.
-/

namespace KeyDerivation

/-! ### Messages in pieces -/

namespace StreamingHash

/-- **For a hash that does not mind pieces, a digest is the value of a message**, as soon
as there is one piece at all. -/
theorem Streams.digest_absorbAll {hash : StreamingHash} (h : hash.Streams) (first : Bytes)
    (pieces : List Bytes) :
    hash.digest (hash.absorbAll (first :: pieces)) = hash.value (first ++ pieces.flatten) := by
  induction pieces generalizing first with
  | nil =>
    rw [List.flatten_nil, List.append_nil]
    rfl
  | cons piece pieces ih =>
    rw [List.flatten_cons, ← List.append_assoc, ← ih (first ++ piece)]
    exact h first piece [] pieces

theorem streams_sha1 : StreamingHash.sha1.Streams :=
  IteratedHash.streams_toStreamingHash _ _ _

theorem streams_sha256 : StreamingHash.sha256.Streams :=
  IteratedHash.streams_toStreamingHash _ _ _

theorem streams_sha512 : StreamingHash.sha512.Streams :=
  IteratedHash.streams_toStreamingHash _ _ _

end StreamingHash

namespace Hmac

variable (hash : StreamingHash)

/-! ### The formula -/

/-- A byte string filled up with zeros to `n` bytes. -/
def zeroPadded (n : Nat) (bytes : Bytes) : Bytes :=
  bytes ++ List.replicate (n - bytes.length) 0

/-- **The key as one block**: a key no longer than a block, or the hash of a longer one,
filled up with zeros. -/
def preparedKey (key : Bytes) : Bytes :=
  if key.length ≤ hash.blockLength then zeroPadded hash.blockLength key
  else zeroPadded hash.blockLength (hash.value key).toList

/-- **The tag by the formula of RFC 2104.** -/
def nested (key message : Bytes) : Buffer hash.digestLength :=
  hash.value ((preparedKey hash key).map (· ^^^ 0x5c) ++
    (hash.value ((preparedKey hash key).map (· ^^^ 0x36) ++ message)).toList)

/-! ### The key -/

theorem preparedKey_eq (key : Bytes) :
    preparedKey hash key = zeroPadded hash.blockLength (effectiveKey hash key) := by
  unfold preparedKey effectiveKey
  split <;> rfl

theorem length_preparedKey (key : Bytes) : (preparedKey hash key).length = hash.blockLength := by
  have hkey := length_effectiveKey_le hash key
  rw [preparedKey_eq, zeroPadded, List.length_append, List.length_replicate]
  omega

/-- **The key block** is the key as one block, and zeros behind it. -/
theorem toList_keyBlock (key : Bytes) :
    (keyBlock hash key).toList =
      preparedKey hash key ++ List.replicate (maxBlockLength - hash.blockLength) 0 := by
  have hkey := length_effectiveKey_le hash key
  have hblock := hash.blockLength_le
  rw [keyBlock, Buffer.toList_overwrite, List.take_zero, List.nil_append, Nat.zero_add,
    preparedKey_eq, zeroPadded, List.append_assoc, List.replicate_append_replicate]
  simp [Buffer.zeros]
  omega

/-- The front of the key block is the key as one block. -/
theorem take_keyBlock (key : Bytes) :
    (keyBlock hash key).toList.take hash.blockLength = preparedKey hash key := by
  rw [toList_keyBlock, List.take_left' (length_preparedKey hash key)]

/-- **Zeros behind a key** make no difference as long as there is room for them in a block. -/
theorem preparedKey_append_zeros {key : Bytes} {zeros : Nat}
    (h : key.length + zeros ≤ hash.blockLength) :
    preparedKey hash (key ++ List.replicate zeros 0) = preparedKey hash key := by
  have hlong : (key ++ List.replicate zeros 0).length ≤ hash.blockLength := by simpa using h
  rw [preparedKey, if_pos hlong, preparedKey, if_pos (by omega), zeroPadded, zeroPadded,
    List.append_assoc, List.replicate_append_replicate, List.length_append, List.length_replicate]
  congr 2
  omega

/-- **The digest of a long key** can take its place. -/
theorem preparedKey_value {key : Bytes} (h : hash.blockLength < key.length) :
    preparedKey hash (hash.value key).toList = preparedKey hash key := by
  have hdigest : (hash.value key).toList.length ≤ hash.blockLength := by
    simpa using hash.digestLength_le_blockLength
  rw [preparedKey, if_pos hdigest, preparedKey, if_neg (Nat.not_le.mpr h)]

/-- Keys that are the same as one block have the same key block. -/
theorem keyBlock_congr {key key' : Bytes} (h : preparedKey hash key = preparedKey hash key') :
    keyBlock hash key = keyBlock hash key' := by
  rw [← Vector.toList_inj, toList_keyBlock, toList_keyBlock, h]

/-- **A keyed computation knows its key as one block only.** -/
theorem start_congr {key key' : Bytes} (h : preparedKey hash key = preparedKey hash key') :
    start hash key = start hash key' := by
  rw [start, start, innerBlock, innerBlock, pad, pad, pad, pad, keyBlock_congr hash h]

/-- **The front of a pad** is the key as one block, each byte masked. -/
theorem take_pad (mask : UInt8) (key : Bytes) :
    (pad hash mask key).toList.take hash.blockLength =
      (preparedKey hash key).map (· ^^^ mask) := by
  rw [← take_keyBlock]
  refine List.ext_getElem (by simp) fun i hi _ => ?_
  have hin : i < hash.blockLength := by
    rw [List.length_take] at hi
    omega
  simp [pad, hin]

/-! ### The computation -/

namespace Context

variable {hash}

theorem inner_foldl_absorb (context : Context hash) (pieces : List Bytes) :
    (pieces.foldl absorb context).inner = pieces.foldl hash.absorb context.inner := by
  induction pieces generalizing context with
  | nil => rfl
  | cons piece pieces ih => exact ih (context.absorb piece)

theorem outerPad_foldl_absorb (context : Context hash) (pieces : List Bytes) :
    (pieces.foldl absorb context).outerPad = context.outerPad := by
  induction pieces generalizing context with
  | nil => rfl
  | cons piece pieces ih => exact ih (context.absorb piece)

end Context

/-- **The tag of a message in pieces is that of the formula.** -/
theorem tag_foldl_absorb (hstreams : hash.Streams) (key : Bytes) (pieces : List Bytes) :
    (pieces.foldl Context.absorb (start hash key)).tag = nested hash key pieces.flatten := by
  have hinner : hash.digest (pieces.foldl Context.absorb (start hash key)).inner =
      hash.value ((preparedKey hash key).map (· ^^^ 0x36) ++ pieces.flatten) := by
    rw [Context.inner_foldl_absorb, ← take_pad]
    exact hstreams.digest_absorbAll (innerBlock hash key) pieces
  have houter : (pieces.foldl Context.absorb (start hash key)).outerBlock =
      (preparedKey hash key).map (· ^^^ 0x5c) := by
    rw [Context.outerBlock, Context.outerPad_foldl_absorb, ← take_pad]
    rfl
  rw [Context.tag, hstreams.digest_absorbAll, hinner, houter, List.flatten_cons, List.flatten_nil,
    List.append_nil, nested]

/-- **The keyed hash does not mind pieces** if the hash does not. -/
theorem streams_prf (hstreams : hash.Streams) : (prf hash).Streams := by
  intro key a b before after
  refine (tag_foldl_absorb hash hstreams key (before ++ a :: b :: after)).trans ?_
  refine Eq.trans ?_ (tag_foldl_absorb hash hstreams key (before ++ (a ++ b) :: after)).symm
  simp

/-- Finishing a computation over pieces writes the tag of the formula to the front of a
buffer, and nothing else; a buffer too short for it is refused. -/
theorem finish?_foldl_absorb (hstreams : hash.Streams) (key : Bytes) (pieces : List Bytes)
    {n : Nat} (out : Buffer n) :
    ((pieces.foldl Context.absorb (start hash key)).finish? out).map Vector.toList =
      if hash.digestLength ≤ n then
        some ((nested hash key pieces.flatten).toList ++ out.toList.drop hash.digestLength)
      else none := by
  rw [Context.finish?, Buffer.map_toList_writeFront?, tag_foldl_absorb hash hstreams,
    Vector.length_toList]

/-- **Every way of tagging a message gives the tag of RFC 2104**: a context that absorbs
the message in pieces, the pseudorandom function made of it with the same pieces or with
the whole message, and the computation in one go. Each writes the tag to the front of a
buffer and leaves the bytes behind it, and each refuses a buffer that is too short. The
three hash functions in use are among those it holds for. -/
theorem tagging_eq_nested :
    (StreamingHash.sha1.Streams ∧ StreamingHash.sha256.Streams ∧ StreamingHash.sha512.Streams) ∧
    ∀ hash : StreamingHash, hash.Streams →
      ∀ (key : Bytes) (pieces : List Bytes) (n : Nat) (out : Buffer n),
        let tag := nested hash key pieces.flatten
        let written :=
          if hash.digestLength ≤ n then some (tag.toList ++ out.toList.drop hash.digestLength)
          else none
        ((pieces.foldl Context.absorb (start hash key)).finish? out).map Vector.toList = written ∧
        (Prf.finish? ((prf hash).context key pieces) out).map Vector.toList = written ∧
        ((prf hash).compute? key pieces.flatten out).map Vector.toList = written ∧
        (compute? hash key pieces.flatten out).map Vector.toList = written := by
  refine ⟨⟨StreamingHash.streams_sha1, StreamingHash.streams_sha256,
    StreamingHash.streams_sha512⟩, ?_⟩
  intro hash hstreams key pieces n out
  -- The one-shot computations are those over a single piece.
  have hpieces := finish?_foldl_absorb hash hstreams key pieces out
  have hwhole := finish?_foldl_absorb hash hstreams key [pieces.flatten] out
  rw [List.flatten_singleton] at hwhole
  exact ⟨hpieces, hpieces, hwhole, hwhole⟩

/-- A key of one byte more than a block, a message in three pieces, and a buffer with one
byte to spare. -/
theorem tagging_eq_nested_long_key :
    StreamingHash.sha1.Streams ∧
      let key := List.replicate 65 0xaa
      let pieces : List Bytes := [[0x61], [], [0x62, 0x63]]
      let out : Buffer 21 := Vector.replicate 21 0xee
      let written := some ((nested .sha1 key [0x61, 0x62, 0x63]).toList ++ [0xee])
      ((pieces.foldl Context.absorb (start .sha1 key)).finish? out).map Vector.toList = written ∧
      (Prf.finish? ((prf .sha1).context key pieces) out).map Vector.toList = written ∧
      ((prf .sha1).compute? key pieces.flatten out).map Vector.toList = written ∧
      (compute? .sha1 key pieces.flatten out).map Vector.toList = written :=
  ⟨StreamingHash.streams_sha1,
    tagging_eq_nested.2 .sha1 StreamingHash.streams_sha1 (List.replicate 65 0xaa)
      [[0x61], [], [0x62, 0x63]] 21 (Vector.replicate 21 0xee)⟩

end Hmac

end KeyDerivation
