import KeyDerivation.Hash.Sha1
import KeyDerivation.Hash.Sha256
import KeyDerivation.Hash.Sha512
import KeyDerivation.Proofs.Hash.Streaming
import KeyDerivation.Proofs.Hash.Word
import Mathlib.Data.List.Induction

/-!
# The padding tells messages apart

The end marker and the zeros of the padding can be imitated by a message. What cannot be
imitated is the length field at the very end, as long as the number of bits fits in it. So a
message can be read back from the blocks it is compressed as
(`KeyDerivation.IteratedHash.take_padded`), and the blocks of one message are never the last ones
of another (`KeyDerivation.IteratedHash.eq_of_isSuffix_compressedBlocks`).

The second property is what an iterated hash function is strengthened for. Two messages with one
digest lead back, block by block from the end, to a place where the compression function has
been given two different things and has returned the same
(`KeyDerivation.exists_collision_of_foldl_eq`). If the blocks of one message were the last ones
of the other, there would not have to be such a place.

Which blocks are compressed is observed on the stream itself:
`KeyDerivation.IteratedHash.listing` is the hash function whose chaining value is the list of
the blocks compressed so far. The results hold for any hash function that does not confuse two
chaining values when it spells them, and at the end of the file for the three that are in use.
-/

namespace KeyDerivation

/-! ### Two folds that meet -/

/-- **Two computations that end alike** have gone through the same step from different sides,
unless one has only done the last steps of the other. -/
theorem exists_collision_of_foldl_eq {σ β : Type} {f : σ → β → σ} {start : σ} {l l' : List β}
    (h : l.foldl f start = l'.foldl f start) (hsuffix : ¬l <:+ l') (hsuffix' : ¬l' <:+ l) :
    ∃ before b before' b' after, l = before ++ b :: after ∧ l' = before' ++ b' :: after ∧
      (before.foldl f start, b) ≠ (before'.foldl f start, b') ∧
      f (before.foldl f start) b = f (before'.foldl f start) b' := by
  -- The induction goes from the last step to the first, and takes one off both lists.
  induction l using List.reverseRecOn generalizing l' with
  | nil => exact absurd List.nil_suffix hsuffix
  | append_singleton l b ih =>
    rcases List.eq_nil_or_concat l' with rfl | ⟨l', b', rfl⟩
    · exact absurd List.nil_suffix hsuffix'
    rw [List.concat_eq_append] at h hsuffix hsuffix' ⊢
    rw [List.foldl_append, List.foldl_append] at h
    by_cases hsame : (l.foldl f start, b) = (l'.foldl f start, b')
    · obtain ⟨hfold, rfl⟩ := Prod.mk.inj hsame
      have hshort : ∀ {a c : List β}, a <:+ c → a ++ [b] <:+ c ++ [b] := by
        rintro a _ ⟨front, rfl⟩
        exact ⟨front, by rw [List.append_assoc]⟩
      obtain ⟨before, d, before', d', after, rfl, rfl, hne, heq⟩ :=
        ih hfold (fun hcon => hsuffix (hshort hcon)) fun hcon => hsuffix' (hshort hcon)
      exact ⟨before, d, before', d', after ++ [b], by simp, by simp, hne, heq⟩
    · exact ⟨l, b, l', b', [], rfl, rfl, hsame, h⟩

namespace IteratedHash

/-! ### The blocks that are compressed -/

section Listing

variable (hash : IteratedHash)

/-- **A hash function that lists its blocks**: a chaining value is the list of the blocks that
were compressed so far. Everything else is as it is in the hash function. -/
def listing : IteratedHash where
  blockLength := hash.blockLength
  digestLength := 0
  lengthWidth := hash.lengthWidth
  Chain := List (Buffer hash.blockLength)
  initial := []
  blank := []
  compress blocks block := blocks ++ [block]
  spell _ := #v[]
  blockLength_pos := hash.blockLength_pos
  lengthWidth_le := hash.lengthWidth_le

/-- **All blocks that are compressed** when a new stream absorbs the given pieces and is then
finished. -/
def compressedBlocks (pieces : List Bytes) : List (Buffer hash.blockLength) :=
  let stream := pieces.foldl Stream.absorb (Stream.start : Stream hash.listing)
  stream.lastBlocks.foldl hash.listing.compress stream.chain

variable {hash}

/-- A list grows by the blocks compressed. -/
theorem foldl_compress_listing (blocks seen : List (Buffer hash.blockLength)) :
    blocks.foldl hash.listing.compress seen = seen ++ blocks := by
  induction blocks generalizing seen with
  | nil => exact (List.append_nil seen).symm
  | cons block blocks ih =>
    exact (ih (seen ++ [block])).trans (List.append_assoc seen [block] blocks)

/-- **The blocks compressed are the padded message**, whatever its pieces. -/
theorem joined_compressedBlocks (pieces : List Bytes) :
    joined (hash.compressedBlocks pieces) = hash.padded pieces.flatten := by
  have habsorbed := (@Stream.hasAbsorbed_start hash.listing).foldl_absorb pieces
  obtain ⟨blocks, hlist, hbytes⟩ := habsorbed.exists_padded_blocks
  have hall : hash.compressedBlocks pieces = blocks :=
    hlist.trans (foldl_compress_listing blocks [])
  rw [hall]
  exact hbytes

/-- **The digest comes from these blocks** and no others. -/
theorem digest_foldl_absorb_eq (pieces : List Bytes) :
    (pieces.foldl Stream.absorb (Stream.start : Stream hash)).digest =
      hash.spell ((hash.compressedBlocks pieces).foldl hash.compress hash.initial) := by
  rw [digest_foldl_absorb, iterated, ← joined_compressedBlocks,
    wholeBlocks_joined hash.blockLength_pos]

end Listing

/-! ### Reading back a padded message -/

section Padded

variable {hash : IteratedHash} {message message' : Bytes}

theorem padded_eq_append (message : Bytes) :
    hash.padded message =
      (message ++ 0x80 :: List.replicate (zeroCount hash.blockLength
        (lengthFieldOf hash.lengthWidth message).length message.length) 0) ++
        lengthFieldOf hash.lengthWidth message := by
  rw [padded, padWith, List.append_assoc, List.cons_append]

theorem length_lengthFieldOf (w : Nat) (message : Bytes) : (lengthFieldOf w message).length = w :=
  length_bigEndian _ _

/-- The length of a padded message follows from that of the message. -/
theorem length_padded_congr (h : message.length = message'.length) :
    (hash.padded message).length = (hash.padded message').length := by
  simp only [padded_eq_append, List.length_append, List.length_cons, List.length_replicate,
    length_lengthFieldOf, h]

variable (hash) in
theorem lengthWidth_le_length_padded (message : Bytes) :
    hash.lengthWidth ≤ (hash.padded message).length := by
  rw [padded_eq_append, List.length_append, length_lengthFieldOf]
  exact Nat.le_add_left _ _

variable (hash) in
/-- A padded message begins with the message. -/
theorem take_padded (message : Bytes) : (hash.padded message).take message.length = message := by
  rw [padded, padWith, List.take_left]

/-- **A padded message ends with its number of bits**, if there is room for it. -/
theorem bigEndianValue_drop_padded (hfits : 8 * message.length < 2 ^ (8 * hash.lengthWidth)) :
    bigEndianValue ((hash.padded message).drop
      ((hash.padded message).length - hash.lengthWidth)) = 8 * message.length := by
  have hfield : (hash.padded message).drop
      ((hash.padded message).length - hash.lengthWidth) =
        lengthFieldOf hash.lengthWidth message := by
    rw [padded_eq_append]
    refine List.drop_left' ?_
    simp only [List.length_append, length_lengthFieldOf, Nat.add_sub_cancel]
  rw [hfield, lengthFieldOf, bigEndianValue_bigEndian, Nat.mod_eq_of_lt hfits, Nat.mod_eq_of_lt]
  rwa [Nat.pow_mul] at hfits

/-- **No padded message ends with another one.** -/
theorem eq_of_isSuffix_padded (hfits : 8 * message.length < 2 ^ (8 * hash.lengthWidth))
    (hfits' : 8 * message'.length < 2 ^ (8 * hash.lengthWidth))
    (h : hash.padded message <:+ hash.padded message') : message = message' := by
  obtain ⟨front, hfront⟩ := h
  -- Both end with the same field, so the messages have the same length, and so do the padded
  -- ones: nothing is in front.
  have hwidth := lengthWidth_le_length_padded hash message
  have hbits : 8 * message.length = 8 * message'.length := by
    rw [← bigEndianValue_drop_padded hfits, ← bigEndianValue_drop_padded hfits', ← hfront,
      List.length_append, Nat.add_sub_assoc hwidth, ← List.drop_drop, List.drop_left]
  have hlength : message.length = message'.length := Nat.eq_of_mul_eq_mul_left (by decide) hbits
  have hfront_nil : front = [] := by
    have hcount := congrArg List.length hfront
    rw [List.length_append, length_padded_congr hlength] at hcount
    exact List.length_eq_zero_iff.mp (by omega)
  rw [hfront_nil, List.nil_append] at hfront
  rw [← take_padded hash message, ← take_padded hash message', hfront, hlength]

/-- **The blocks of one message are never the last blocks of another.** -/
theorem eq_of_isSuffix_compressedBlocks {pieces pieces' : List Bytes}
    (hfits : 8 * pieces.flatten.length < 2 ^ (8 * hash.lengthWidth))
    (hfits' : 8 * pieces'.flatten.length < 2 ^ (8 * hash.lengthWidth))
    (h : hash.compressedBlocks pieces <:+ hash.compressedBlocks pieces') :
    pieces.flatten = pieces'.flatten := by
  obtain ⟨front, hfront⟩ := h
  refine eq_of_isSuffix_padded hfits hfits' ⟨joined front, ?_⟩
  rw [← joined_compressedBlocks, ← joined_compressedBlocks, ← hfront, joined_append]

end Padded

/-! ### Told apart by their blocks -/

section Strengthened

variable {hash : IteratedHash} {pieces pieces' : List Bytes}

/-- **The number at the end of a sequence of blocks**, in the given number of bytes. -/
def lastNumber (width : Nat) {n : Nat} (blocks : List (Buffer n)) : Nat :=
  bigEndianValue ((joined blocks).drop ((joined blocks).length - width))

/-- The number at the end of the blocks of a message is its length in bits. -/
theorem lastNumber_compressedBlocks
    (hfits : 8 * pieces.flatten.length < 2 ^ (8 * hash.lengthWidth)) :
    lastNumber hash.lengthWidth (hash.compressedBlocks pieces) = 8 * pieces.flatten.length := by
  rw [lastNumber, joined_compressedBlocks, bigEndianValue_drop_padded hfits]

/-- As many bits as that number says, from the front, are the message. -/
theorem take_lastNumber (hfits : 8 * pieces.flatten.length < 2 ^ (8 * hash.lengthWidth)) :
    (joined (hash.compressedBlocks pieces)).take
      (lastNumber hash.lengthWidth (hash.compressedBlocks pieces) / 8) = pieces.flatten := by
  rw [lastNumber_compressedBlocks hfits, Nat.mul_div_cancel_left _ (by decide),
    joined_compressedBlocks, take_padded]

/-- **Two messages with one digest lead to a collision** of the compression function, among
the steps that compute the two digests. -/
theorem exists_collision_of_digest_eq (hspell : Function.Injective hash.spell)
    (hfits : 8 * pieces.flatten.length < 2 ^ (8 * hash.lengthWidth))
    (hfits' : 8 * pieces'.flatten.length < 2 ^ (8 * hash.lengthWidth))
    (hne : pieces.flatten ≠ pieces'.flatten)
    (h : (pieces.foldl Stream.absorb (Stream.start : Stream hash)).digest =
      (pieces'.foldl Stream.absorb (Stream.start : Stream hash)).digest) :
    ∃ before block before' block' after,
      hash.compressedBlocks pieces = before ++ block :: after ∧
      hash.compressedBlocks pieces' = before' ++ block' :: after ∧
      (before.foldl hash.compress hash.initial, block) ≠
        (before'.foldl hash.compress hash.initial, block') ∧
      hash.compress (before.foldl hash.compress hash.initial) block =
        hash.compress (before'.foldl hash.compress hash.initial) block' := by
  rw [digest_foldl_absorb_eq, digest_foldl_absorb_eq] at h
  exact exists_collision_of_foldl_eq (hspell h)
    (fun hsuffix => hne (eq_of_isSuffix_compressedBlocks hfits hfits' hsuffix))
    fun hsuffix => hne (eq_of_isSuffix_compressedBlocks hfits' hfits hsuffix).symm

end Strengthened

/-! ### The three hash functions -/

theorem spell_sha1_injective : Function.Injective sha1.spell := by
  rintro ⟨a, b, c, d, e⟩ ⟨a', b', c', d', e'⟩ h
  have hwords : [a, b, c, d, e] = [a', b', c', d', e'] :=
    Word.spell_inj rfl (congrArg Vector.toList h)
  simp only [List.cons.injEq, and_true] at hwords
  obtain ⟨rfl, rfl, rfl, rfl, rfl⟩ := hwords
  rfl

theorem spell_toIteratedHash_injective {W : Type} [Word W] [LawfulWord W] (family : Sha2 W) :
    Function.Injective family.toIteratedHash.spell := by
  rintro ⟨a, b, c, d, e, f, g, i⟩ ⟨a', b', c', d', e', f', g', i'⟩ h
  have hwords : [a, b, c, d, e, f, g, i] = [a', b', c', d', e', f', g', i'] :=
    Word.spell_inj rfl (congrArg Vector.toList h)
  simp only [List.cons.injEq, and_true] at hwords
  obtain ⟨rfl, rfl, rfl, rfl, rfl, rfl, rfl, rfl⟩ := hwords
  rfl

/-- **SHA-1, SHA-256 and SHA-512 are strengthened.** Below the length limit, in bytes, a
message is read back from the blocks it is compressed as: their last bytes are the number of
its bits, and the message stands in front. The blocks of two different messages, in whatever
pieces, are different, and neither are the last blocks of the other. So two messages with one
digest have a collision of the compression function among the steps that compute the two. -/
theorem sha_blocks_tell_messages_apart {hash : IteratedHash} {width limit : Nat}
    (hhash : (hash, width, limit) ∈
      [(sha1, 8, 2 ^ 61), (sha256, 8, 2 ^ 61), (sha512, 16, 2 ^ 125)]) :
    (∀ pieces : List Bytes, pieces.flatten.length < limit →
      let blocks := hash.compressedBlocks pieces
      (pieces.foldl Stream.absorb (Stream.start : Stream hash)).digest =
        hash.spell (blocks.foldl hash.compress hash.initial) ∧
      lastNumber width blocks = 8 * pieces.flatten.length ∧
      (joined blocks).take (lastNumber width blocks / 8) = pieces.flatten) ∧
    ∀ pieces pieces' : List Bytes, pieces.flatten.length < limit →
      pieces'.flatten.length < limit → pieces.flatten ≠ pieces'.flatten →
      let blocks := hash.compressedBlocks pieces
      let blocks' := hash.compressedBlocks pieces'
      blocks ≠ blocks' ∧ ¬blocks <:+ blocks' ∧ ¬blocks' <:+ blocks ∧
      ((pieces.foldl Stream.absorb (Stream.start : Stream hash)).digest =
          (pieces'.foldl Stream.absorb (Stream.start : Stream hash)).digest →
        ∃ before block before' block' after,
          blocks = before ++ block :: after ∧ blocks' = before' ++ block' :: after ∧
          (before.foldl hash.compress hash.initial, block) ≠
            (before'.foldl hash.compress hash.initial, block') ∧
          hash.compress (before.foldl hash.compress hash.initial) block =
            hash.compress (before'.foldl hash.compress hash.initial) block') := by
  -- Of the single functions only this is used: how wide the field is, that the limit is the
  -- one it sets, and that a digest says what the chaining value is.
  obtain ⟨rfl, hlimit, hspell⟩ : hash.lengthWidth = width ∧ 8 * limit = 2 ^ (8 * width) ∧
      Function.Injective hash.spell := by
    simp only [List.mem_cons, Prod.mk.injEq, List.not_mem_nil, or_false] at hhash
    rcases hhash with ⟨rfl, rfl, rfl⟩ | ⟨rfl, rfl, rfl⟩ | ⟨rfl, rfl, rfl⟩
    · exact ⟨rfl, rfl, spell_sha1_injective⟩
    · exact ⟨rfl, rfl, spell_toIteratedHash_injective Sha256.family⟩
    · exact ⟨rfl, rfl, spell_toIteratedHash_injective Sha512.family⟩
  have hfits {message : Bytes} (hshort : message.length < limit) :
      8 * message.length < 2 ^ (8 * hash.lengthWidth) := by
    rw [← hlimit]
    exact Nat.mul_lt_mul_of_pos_left hshort (by decide)
  refine ⟨fun pieces hshort => ?_, fun pieces pieces' hshort hshort' hne => ?_⟩
  · exact ⟨digest_foldl_absorb_eq pieces, lastNumber_compressedBlocks (hfits hshort),
      take_lastNumber (hfits hshort)⟩
  · have hsuffix : ¬hash.compressedBlocks pieces <:+ hash.compressedBlocks pieces' :=
      fun h => hne (eq_of_isSuffix_compressedBlocks (hfits hshort) (hfits hshort') h)
    have hsuffix' : ¬hash.compressedBlocks pieces' <:+ hash.compressedBlocks pieces :=
      fun h => hne (eq_of_isSuffix_compressedBlocks (hfits hshort') (hfits hshort) h).symm
    exact ⟨fun h => hsuffix (h ▸ List.suffix_rfl), hsuffix, hsuffix',
      exists_collision_of_digest_eq hspell (hfits hshort) (hfits hshort') hne⟩

/-- The empty message, and a message that imitates the whole block it is padded to: the blocks
of the second begin with the one of the first, but they do not end with it. -/
theorem sha1_blocks_tell_imitation_apart :
    (sha1, 8, 2 ^ 61) ∈ [(sha1, 8, 2 ^ 61), (sha256, 8, 2 ^ 61), (sha512, 16, 2 ^ 125)] ∧
      ([[]] : List Bytes).flatten ≠ [[0x80], List.replicate 63 0].flatten ∧
      ¬sha1.compressedBlocks [[]] <:+ sha1.compressedBlocks [[0x80], List.replicate 63 0] ∧
      lastNumber 8 (sha1.compressedBlocks [[0x80], List.replicate 63 0]) = 512 := by
  have hmem : (sha1, 8, 2 ^ 61) ∈
      [(sha1, 8, 2 ^ 61), (sha256, 8, 2 ^ 61), (sha512, 16, 2 ^ 125)] := by simp
  have hread := (sha_blocks_tell_messages_apart hmem).1 [[0x80], List.replicate 63 0] (by decide)
  have hpair := (sha_blocks_tell_messages_apart hmem).2 [[]] [[0x80], List.replicate 63 0]
    (by decide) (by decide) (by decide)
  exact ⟨hmem, by decide, hpair.2.1, hread.2.1⟩

end IteratedHash

end KeyDerivation
