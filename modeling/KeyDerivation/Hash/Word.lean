import KeyDerivation.Buffer

/-!
# Machine words, and blocks read as words

The compression functions of the SHA family compute with words of 32 or 64 bits:
addition that wraps, bitwise operations, rotations and shifts. `KeyDerivation.Word`
collects what they need, so that the two word sizes share one set of definitions.

A word is read from and spelled in bytes most significant byte first
(`KeyDerivation.Word.ofBytes`, `KeyDerivation.Word.toBytes`), and a block is sixteen
words (`KeyDerivation.Word.ofBlock`).
-/

namespace KeyDerivation

/-- **A machine word** of `width` bytes. Addition wraps. -/
class Word (W : Type) extends Add W, AndOp W, OrOp W, XorOp W, Complement W where
  /-- The size of a word in bytes. -/
  width : Nat
  width_pos : 0 < width
  /-- The word of a number, high bits dropped. -/
  ofNat : Nat → W
  toNat : W → Nat
  /-- Rotation to the right by a number of bits below the word size. -/
  rotateRight : W → Nat → W
  /-- Shift to the right by a number of bits below the word size. -/
  shiftRight : W → Nat → W

instance : Word UInt32 where
  width := 4
  width_pos := Nat.succ_pos 3
  ofNat := UInt32.ofNat
  toNat := UInt32.toNat
  rotateRight x k := x >>> UInt32.ofNat k ||| x <<< UInt32.ofNat (32 - k)
  shiftRight x k := x >>> UInt32.ofNat k

instance : Word UInt64 where
  width := 8
  width_pos := Nat.succ_pos 7
  ofNat := UInt64.ofNat
  toNat := UInt64.toNat
  rotateRight x k := x >>> UInt64.ofNat k ||| x <<< UInt64.ofNat (64 - k)
  shiftRight x k := x >>> UInt64.ofNat k

namespace Word

variable {W : Type} [Word W]

/-- Rotation to the left, by a number of bits from one to the word size. -/
def rotateLeft (x : W) (k : Nat) : W := rotateRight x (8 * width W - k)

/-! ### Words and bytes -/

/-- The word a byte string spells, most significant byte first. -/
def ofBytes (bytes : Bytes) : W := ofNat (bigEndianValue bytes)

/-- A word spelled most significant byte first. -/
def toBytes (x : W) : Bytes := bigEndian (width W) (toNat x)

/-- Words spelled one after the other. -/
def spell (words : List W) : Bytes := words.flatMap toBytes

theorem length_spell (words : List W) : (spell words).length = words.length * width W := by
  induction words with
  | nil => simp [spell]
  | cons x words ih =>
    simp only [spell, List.flatMap_cons, List.length_append, List.length_cons] at ih ⊢
    simp [ih, toBytes, Nat.succ_mul, Nat.add_comm]

/-- **The sixteen words of a block**, in order. -/
def ofBlock (block : Buffer (16 * width W)) : Vector W 16 :=
  Vector.ofFn fun t =>
    ofBytes (Buffer.stretch block (t.val * width W) (width W)
      (Nat.succ_mul t.val _ ▸ Nat.mul_le_mul_right _ t.isLt)).toList

end Word

end KeyDerivation
