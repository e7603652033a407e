import KeyDerivation.Hash.Basic
import KeyDerivation.Hash.PartialBlock

/-!
# Iterated hash functions

A hash function of the iterated kind folds a compression function over the blocks
of the padded message, starting from a fixed chaining value, and spells out the
chaining value it ends with. `KeyDerivation.IteratedHash` holds what one such
function chooses; `KeyDerivation.IteratedHash.Stream` is the computation, which takes
its message in pieces:

* `absorb` compresses every block a piece completes and counts the bytes;
* `digest` pads and finishes a copy, so that a stream can be looked at while it runs;
* `finish?` writes the digest to the front of a caller's buffer and starts over;
* `wipe` forgets everything. A wiped stream is **not** a new one: its chaining value is
  all zero, not the initial one.

The byte count has as many bits as the length field and wraps; the field holds
eight times the count, in bits.
-/

namespace KeyDerivation

/-- **An iterated hash function**: its sizes in bytes, its chaining values, and the
compression function between them. -/
structure IteratedHash where
  blockLength : Nat
  digestLength : Nat
  /-- The width of the message length field. -/
  lengthWidth : Nat
  /-- Chaining values. -/
  Chain : Type
  /-- The chaining value before the first block. -/
  initial : Chain
  /-- The chaining value with all words zero. -/
  blank : Chain
  compress : Chain → Buffer blockLength → Chain
  /-- A chaining value spelled out as a digest. -/
  spell : Chain → Buffer digestLength
  blockLength_pos : 0 < blockLength := by decide
  lengthWidth_le : lengthWidth ≤ blockLength := by decide

namespace IteratedHash

/-- **A computation under way**: the chaining value of the blocks compressed so far,
the bytes that do not fill a block yet, and the number of all bytes absorbed. -/
structure Stream (hash : IteratedHash) where
  chain : hash.Chain
  tail : PartialBlock hash.blockLength
  /-- Bytes absorbed, as wide as the length field. -/
  count : BitVec (8 * hash.lengthWidth)

namespace Stream

variable {hash : IteratedHash}

/-- The stream that has absorbed nothing. -/
def start : Stream hash := ⟨hash.initial, .empty hash.blockLength_pos, 0⟩

/-- Absorbs a piece of the message. -/
def absorb (stream : Stream hash) (data : Bytes) : Stream hash :=
  let (blocks, tail) := stream.tail.absorb data
  { chain := blocks.foldl hash.compress stream.chain
    tail := tail
    count := stream.count + BitVec.ofNat _ data.length }

/-- The length field that ends the padding: the message length in bits. -/
def lengthField (stream : Stream hash) : Bytes :=
  bigEndian hash.lengthWidth (stream.count * 8).toNat

/-- The end of the message: the blocks of the padding, with the bytes that were still
pending, and the tail after them. -/
def close (stream : Stream hash) : List (Buffer hash.blockLength) × PartialBlock hash.blockLength :=
  stream.tail.close stream.lengthField (by simpa [lengthField] using hash.lengthWidth_le)

/-- The blocks of the padding, with the bytes that were still pending. -/
def lastBlocks (stream : Stream hash) : List (Buffer hash.blockLength) := stream.close.1

/-- **The digest of the bytes absorbed so far.** -/
def digest (stream : Stream hash) : Buffer hash.digestLength :=
  hash.spell (stream.lastBlocks.foldl hash.compress stream.chain)

/-- Forgets everything that was absorbed, and the initial chaining value with it:
chaining value, pending bytes and count are all zero afterwards. -/
def wipe (stream : Stream hash) : Stream hash :=
  { chain := hash.blank
    tail := stream.tail.wipe
    count := 0 }

/-- Forgets everything that was absorbed and goes back to the initial chaining value. -/
def reset (stream : Stream hash) : Stream hash := { stream.wipe with chain := hash.initial }

/-- Writes the digest into the first bytes of a buffer and starts over; a buffer too
short for it is refused. -/
def finish? {m : Nat} (stream : Stream hash) (out : Buffer m) :
    Option (Buffer m × Stream hash) :=
  let (blocks, tail) := stream.close
  let ended := { stream with chain := blocks.foldl hash.compress stream.chain, tail := tail }
  (out.writeFront? (hash.spell ended.chain).toList).map fun written => (written, ended.reset)

/-- **Finishing a stream** leaves the stream that has absorbed nothing, whatever the bytes
absorbed before have left behind. -/
theorem finish?_eq {m : Nat} (stream : Stream hash) (out : Buffer m) :
    stream.finish? out =
      (out.writeFront? stream.digest.toList).map fun written => (written, start) := rfl

end Stream

variable (hash : IteratedHash)

/-- **The hash of a message**, absorbed in one piece. -/
def value (message : Bytes) : Buffer hash.digestLength :=
  (Stream.start.absorb message : Stream hash).digest

/-- An iterated hash function, seen from outside. -/
def toStreamingHash (digestLength_le_blockLength : hash.digestLength ≤ hash.blockLength)
    (blockLength_le : hash.blockLength ≤ maxBlockLength)
    (digestLength_le : hash.digestLength ≤ maxWidth) : StreamingHash where
  blockLength := hash.blockLength
  digestLength := hash.digestLength
  State := Stream hash
  start := Stream.start
  absorb := Stream.absorb
  digest := Stream.digest
  digestLength_le_blockLength := digestLength_le_blockLength
  blockLength_le := blockLength_le
  digestLength_le := digestLength_le

end IteratedHash

end KeyDerivation
