import KeyDerivation.Hash.Iterated
import KeyDerivation.Proofs.Hash.Padding

/-!
# A stream computes the iterated hash of what it has absorbed

An iterated hash function is a function of whole messages:
`KeyDerivation.IteratedHash.iterated` pads a message, cuts it into blocks and folds the
compression function over them. A stream keeps much less than the message. The relation
between the two is `KeyDerivation.IteratedHash.Stream.HasAbsorbed`: the blocks compressed so
far and the bytes still pending make up the message, and the count is its length, as far
as the count can hold it.

A step of absorbing keeps the relation
(`KeyDerivation.IteratedHash.Stream.HasAbsorbed.absorb`), hence so does a run of any number
of pieces, and a stream in the relation has the digest of its message
(`KeyDerivation.IteratedHash.Stream.HasAbsorbed.digest_eq`). So pieces do not matter:
`KeyDerivation.IteratedHash.streams_toStreamingHash` is the law that a construction over a
hash function relies on.
-/

namespace KeyDerivation

namespace IteratedHash

variable (hash : IteratedHash)

/-- A message with the padding of a hash function behind it. -/
def padded (message : Bytes) : Bytes :=
  padWith hash.blockLength (lengthFieldOf hash.lengthWidth message) message

/-- **The iterated hash** of a message, from a given chaining value on. -/
def iterated (chain : hash.Chain) (message : Bytes) : Buffer hash.digestLength :=
  hash.spell ((wholeBlocks hash.blockLength (hash.padded message)).foldl hash.compress chain)

variable {hash}

namespace Stream

/-! ### What a stream has absorbed -/

/-- **A stream has absorbed a message** since its chaining value was `chain`. -/
structure HasAbsorbed (stream : Stream hash) (chain : hash.Chain) (message : Bytes) : Prop where
  /-- Some blocks were compressed; they and the pending bytes are the message. -/
  exists_blocks : ∃ blocks : List (Buffer hash.blockLength),
    stream.chain = blocks.foldl hash.compress chain ∧
      joined blocks ++ stream.tail.pending = message
  /-- The count is the length of the message, as far as it fits. -/
  count_eq : stream.count = BitVec.ofNat _ message.length

theorem hasAbsorbed_start : (start : Stream hash).HasAbsorbed hash.initial [] :=
  ⟨⟨[], rfl, rfl⟩, rfl⟩

/-- **A step**: absorbing a piece appends it to what has been absorbed. -/
theorem HasAbsorbed.absorb {stream : Stream hash} {chain : hash.Chain} {message : Bytes}
    (h : stream.HasAbsorbed chain message) (data : Bytes) :
    (stream.absorb data).HasAbsorbed chain (message ++ data) := by
  obtain ⟨⟨blocks, hchain, hbytes⟩, hcount⟩ := h
  -- The blocks compressed before, and behind them those that this piece completes.
  refine ⟨⟨blocks ++ (stream.tail.absorb data).1, ?_, ?_⟩, ?_⟩
  · rw [List.foldl_append, ← hchain]
    rfl
  · rw [joined_append, List.append_assoc]
    change joined blocks ++ (joined (stream.tail.absorb data).1 ++
      (stream.tail.absorb data).2.pending) = message ++ data
    rw [PartialBlock.joined_absorb_append_pending, ← List.append_assoc, hbytes]
  · rw [List.length_append, BitVec.ofNat_add, ← hcount]
    rfl

/-- **A run**: absorbing pieces one after the other absorbs their concatenation. -/
theorem HasAbsorbed.foldl_absorb {stream : Stream hash} {chain : hash.Chain} {message : Bytes}
    (h : stream.HasAbsorbed chain message) (pieces : List Bytes) :
    (pieces.foldl Stream.absorb stream).HasAbsorbed chain (message ++ pieces.flatten) := by
  induction pieces generalizing stream message with
  | nil => simpa using h
  | cons piece pieces ih =>
    rw [List.foldl_cons, List.flatten_cons, ← List.append_assoc]
    exact ih (h.absorb piece)

/-! ### The digest -/

/-- The length field of a stream is that of its message. -/
theorem HasAbsorbed.lengthField_eq {stream : Stream hash} {chain : hash.Chain} {message : Bytes}
    (h : stream.HasAbsorbed chain message) :
    stream.lengthField = lengthFieldOf hash.lengthWidth message := by
  have hbits : (stream.count * 8).toNat = 8 * message.length % 2 ^ (8 * hash.lengthWidth) := by
    rw [h.count_eq, BitVec.toNat_mul]
    simp [Nat.mul_comm]
  rw [lengthField, hbits, lengthFieldOf]

/-- **All blocks that are compressed**, the last ones of the padding included, are the padded
message. -/
theorem HasAbsorbed.exists_padded_blocks {stream : Stream hash} {chain : hash.Chain}
    {message : Bytes} (h : stream.HasAbsorbed chain message) :
    ∃ blocks : List (Buffer hash.blockLength),
      stream.lastBlocks.foldl hash.compress stream.chain = blocks.foldl hash.compress chain ∧
        joined blocks = hash.padded message := by
  have hfield := h.lengthField_eq
  obtain ⟨⟨blocks, hchain, hbytes⟩, -⟩ := h
  have hlast : joined stream.lastBlocks =
      padWith hash.blockLength (lengthFieldOf hash.lengthWidth message) stream.tail.pending := by
    rw [← hfield]
    exact PartialBlock.joined_close _ _ _
  refine ⟨blocks ++ stream.lastBlocks, ?_, ?_⟩
  · rw [List.foldl_append, hchain]
  · rw [joined_append, hlast, ← padWith_append, hbytes, padded]

/-- **The digest of a stream is the iterated hash of its message.** -/
theorem HasAbsorbed.digest_eq {stream : Stream hash} {chain : hash.Chain} {message : Bytes}
    (h : stream.HasAbsorbed chain message) : stream.digest = hash.iterated chain message := by
  obtain ⟨blocks, hchain, hbytes⟩ := h.exists_padded_blocks
  -- The blocks are what the padded message is cut into.
  rw [digest, iterated, hchain, ← hbytes, wholeBlocks_joined hash.blockLength_pos]

end Stream

/-! ### Pieces do not matter -/

/-- **The digest of a message in pieces** is its iterated hash. -/
theorem digest_foldl_absorb (pieces : List Bytes) :
    (pieces.foldl Stream.absorb (Stream.start : Stream hash)).digest =
      hash.iterated hash.initial pieces.flatten :=
  (Stream.hasAbsorbed_start.foldl_absorb pieces).digest_eq

theorem value_eq_iterated (message : Bytes) :
    hash.value message = hash.iterated hash.initial message :=
  (Stream.hasAbsorbed_start.absorb message).digest_eq

/-- Finishing a stream of pieces writes the iterated hash to the front of a buffer, and
nothing else; a buffer too short for it is refused. -/
theorem finish?_foldl_absorb (pieces : List Bytes) {m : Nat} (out : Buffer m) :
    ((pieces.foldl Stream.absorb (Stream.start : Stream hash)).finish? out).map (·.1.toList) =
      if hash.digestLength ≤ m then
        some ((hash.iterated hash.initial pieces.flatten).toList ++
          out.toList.drop hash.digestLength)
      else none := by
  have hfront := Buffer.map_toList_writeFront? out
    (hash.iterated hash.initial pieces.flatten).toList
  rw [Vector.length_toList] at hfront
  rw [Stream.finish?_eq, Option.map_map, digest_foldl_absorb, ← hfront]
  rfl

/-- **An iterated hash function, seen from outside, does not tell pieces from their
concatenation.** -/
theorem streams_toStreamingHash (hdigest : hash.digestLength ≤ hash.blockLength)
    (hblock : hash.blockLength ≤ maxBlockLength) (hwidth : hash.digestLength ≤ maxWidth) :
    (hash.toStreamingHash hdigest hblock hwidth).Streams := by
  intro a b before after
  refine (digest_foldl_absorb (before ++ a :: b :: after)).trans ?_
  refine Eq.trans ?_ (digest_foldl_absorb (before ++ (a ++ b) :: after)).symm
  simp

end IteratedHash

end KeyDerivation
