import KeyDerivation.Hash.Sha1
import KeyDerivation.Hash.Sha256
import KeyDerivation.Hash.Sha512
import KeyDerivation.Prf

/-!
# HMAC

The keyed hash of RFC 2104. For a hash function `H` with blocks of `B` bytes, the
tag of a message under a key is

`H (K xor 5c…5c ‖ H (K xor 36…36 ‖ message))`

where `K` is a block made from the key: the key itself or, if it is longer than a
block, its digest, filled up with zeros. A key of exactly `B` bytes is used as it
is.

A context keeps the outer pad in an array of `KeyDerivation.maxBlockLength` bytes,
whatever the hash; the bytes behind the block are zero and are never hashed.

`KeyDerivation.Hmac.prf` makes a pseudorandom function of it, and
`KeyDerivation.hmacSha1`, `KeyDerivation.hmacSha256` and `KeyDerivation.hmacSha512` are
the three that derivations use.
-/

namespace KeyDerivation

namespace Hmac

variable (hash : StreamingHash)

/-! ### The key -/

/-- What stands for a key in the computation: the key itself, or its digest if the
key is longer than a block. -/
def effectiveKey (key : Bytes) : Bytes :=
  if key.length ≤ hash.blockLength then key else (hash.value key).toList

theorem length_effectiveKey_le (key : Bytes) :
    (effectiveKey hash key).length ≤ hash.blockLength := by
  unfold effectiveKey
  split
  · assumption
  · simpa using hash.digestLength_le_blockLength

/-- **The key block**: the effective key, followed by zeros up to the longest block
there is. -/
def keyBlock (key : Bytes) : Buffer maxBlockLength :=
  (Buffer.zeros maxBlockLength).overwrite 0 (effectiveKey hash key) (by
    have := length_effectiveKey_le hash key
    have := hash.blockLength_le
    omega)

/-- The key block with one byte added bitwise to all bytes of the block, and zeros
behind them. -/
def pad (mask : UInt8) (key : Bytes) : Buffer maxBlockLength :=
  (keyBlock hash key).mapIdx fun i k => if i < hash.blockLength then k ^^^ mask else 0

/-- The first block of the inner hash: the key block masked with `0x36`. -/
def innerBlock (key : Bytes) : Bytes := (pad hash 0x36 key).toList.take hash.blockLength

/-! ### The computation -/

/-- **A keyed computation**: the inner hash, which has absorbed its first block and
the message so far, and the outer pad, kept for the end. -/
structure Context where
  inner : hash.State
  outerPad : Buffer maxBlockLength

/-- The computation for a key. -/
def start (key : Bytes) : Context hash where
  inner := hash.absorb hash.start (innerBlock hash key)
  outerPad := pad hash 0x5c key

namespace Context

variable {hash}

/-- Absorbs a piece of the message. -/
def absorb (context : Context hash) (data : Bytes) : Context hash :=
  { context with inner := hash.absorb context.inner data }

/-- The first block of the outer hash. -/
def outerBlock (context : Context hash) : Bytes :=
  context.outerPad.toList.take hash.blockLength

/-- **The tag**: the outer hash of the outer block and the inner digest. -/
def tag (context : Context hash) : Buffer hash.digestLength :=
  hash.digest
    (hash.absorbAll [context.outerBlock, (hash.digest context.inner).toList])

/-- Writes the tag into the first bytes of a buffer; a buffer too short for it is
refused. -/
def finish? {n : Nat} (context : Context hash) (out : Buffer n) : Option (Buffer n) :=
  out.writeFront? context.tag.toList

end Context

/-- **The tag of a message**, written into the first bytes of a buffer. -/
def compute? {n : Nat} (key message : Bytes) (out : Buffer n) : Option (Buffer n) :=
  ((start hash key).absorb message).finish? out

/-- HMAC as a pseudorandom function, one digest wide. -/
def prf : Prf where
  width := hash.digestLength
  Context := Context hash
  start := start hash
  absorb := Context.absorb
  output := Context.tag

/-- HMAC over a hash whose digest is not empty can drive a derivation. -/
def blockPrf (digestLength_pos : 0 < hash.digestLength) : BlockPrf :=
  { prf hash with
    width_pos := digestLength_pos
    width_le := hash.digestLength_le }

end Hmac

/-! ### The three functions in use -/

namespace StreamingHash

/-- SHA-1, seen from outside. -/
def sha1 : StreamingHash :=
  KeyDerivation.sha1.toStreamingHash (by decide) (by decide) (by decide)

/-- SHA-256, seen from outside. -/
def sha256 : StreamingHash :=
  KeyDerivation.sha256.toStreamingHash (by decide) (by decide) (by decide)

/-- SHA-512, seen from outside. -/
def sha512 : StreamingHash :=
  KeyDerivation.sha512.toStreamingHash (by decide) (by decide) (by decide)

end StreamingHash

/-- **HMAC-SHA-1**, 20 bytes wide. -/
def hmacSha1 : BlockPrf := Hmac.blockPrf .sha1 (by decide)

/-- **HMAC-SHA-256**, 32 bytes wide. -/
def hmacSha256 : BlockPrf := Hmac.blockPrf .sha256 (by decide)

/-- **HMAC-SHA-512**, 64 bytes wide. -/
def hmacSha512 : BlockPrf := Hmac.blockPrf .sha512 (by decide)

end KeyDerivation
