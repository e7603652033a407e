import KeyDerivation.Prf

/-!
# The FNV-1a checksum, and a pseudorandom function made of it

FNV-1a folds the bytes of a string into one word of 64 bits: a byte is combined by
exclusive or, then the word is multiplied by an odd constant, wrapping. It is no
cryptographic function; it is cheap, and it tells inputs apart that differ in one
byte, which makes it a good stand-in for a pseudorandom function where a
derivation is to be watched rather than trusted.

`KeyDerivation.checksumPrf` is that stand-in: eight bytes, the checksum of the key,
a separator and the message.
-/

namespace KeyDerivation

namespace Fnv

/-- The word before the first byte. -/
def offset : UInt64 := 0xcbf29ce484222325

/-- The multiplier, which is odd. -/
def multiplier : UInt64 := 0x100000001b3

/-- One byte folded into the word. -/
def step (state : UInt64) (b : UInt8) : UInt64 := (state ^^^ b.toUInt64) * multiplier

/-- **The bytes of a string folded into the word**, in order. -/
def absorb (state : UInt64) (bytes : Bytes) : UInt64 := bytes.foldl step state

/-- The checksum of a byte string. -/
def checksum (bytes : Bytes) : UInt64 := absorb offset bytes

end Fnv

/-- A key and the part of the message absorbed so far. -/
structure ChecksumContext where
  key : Bytes
  message : Bytes

namespace ChecksumContext

/-- The byte between key and message. -/
def separator : UInt8 := 0xff

/-- What the checksum is taken of. -/
def text (context : ChecksumContext) : Bytes := context.key ++ separator :: context.message

end ChecksumContext

/-- **The checksum as a pseudorandom function**: the FNV-1a checksum of key,
separator and message, in eight bytes, most significant first. -/
def checksumPrf : BlockPrf where
  width := 8
  Context := ChecksumContext
  start key := ⟨key, []⟩
  absorb context data := { context with message := context.message ++ data }
  output context :=
    .ofBytes (bigEndian 8 (Fnv.checksum context.text).toNat) (length_bigEndian _ _)

/-- A checksum context keeps the key, and the message however it was cut. -/
theorem context_checksumPrf (key : Bytes) (pieces : List Bytes) :
    checksumPrf.context key pieces = (⟨key, pieces.flatten⟩ : ChecksumContext) := by
  suffices h : ∀ message, pieces.foldl checksumPrf.absorb (⟨key, message⟩ : ChecksumContext) =
      (⟨key, message ++ pieces.flatten⟩ : ChecksumContext) from h []
  induction pieces with
  | nil =>
    intro message
    rw [List.flatten_nil, List.append_nil]
    rfl
  | cons piece rest ih =>
    intro message
    rw [List.flatten_cons, ← List.append_assoc]
    exact ih (message ++ piece)

/-- **The checksum does not mind pieces.** -/
theorem streams_checksumPrf : checksumPrf.Streams := by
  intro key a b before after
  rw [Prf.value, Prf.value, context_checksumPrf, context_checksumPrf]
  simp

end KeyDerivation
