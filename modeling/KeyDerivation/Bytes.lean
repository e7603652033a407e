/-!
# Byte strings, big-endian numbers and hexadecimal text

Everything the library reads and writes is a string of bytes. This file fixes the
three readings of such a string that the rest relies on:

* `KeyDerivation.bigEndian` – the **fixed-width big-endian spelling** of a number,
  with `KeyDerivation.bigEndianValue` reading it back. Block indices, message
  lengths, hash words and digests are all written this way;
* `KeyDerivation.hex` – the **lower-case hexadecimal text** of a byte string, two
  digits a byte, the form in which known answers are stated;
* `KeyDerivation.utf8` – the bytes of a text.

A number too large for its width loses its high bytes: `bigEndian k x` depends on
`x` only modulo `256 ^ k`, which is what makes a message length field wrap.
-/

namespace KeyDerivation

/-- A string of bytes, in order. -/
abbrev Bytes := List UInt8

/-! ### Big-endian numbers -/

/-- **The big-endian spelling** of a number in exactly `k` bytes, most significant
first. Bytes that do not fit are dropped from the front. -/
def bigEndian : (k x : Nat) → Bytes
  | 0, _ => []
  | k + 1, x => bigEndian k (x / 256) ++ [UInt8.ofNat x]

/-- The number a byte string spells, most significant byte first. -/
def bigEndianValue (bytes : Bytes) : Nat :=
  bytes.foldl (fun value b => 256 * value + b.toNat) 0

@[simp]
theorem length_bigEndian (k x : Nat) : (bigEndian k x).length = k := by
  induction k generalizing x with
  | zero => rfl
  | succ k ih => rw [bigEndian, List.length_append, ih, List.length_singleton]

/-! ### Text -/

/-- The two lower-case hexadecimal digits of a byte, high digit first. -/
def hexDigits (b : UInt8) : List Char :=
  [Nat.digitChar (b.toNat / 16), Nat.digitChar (b.toNat % 16)]

/-- **The hexadecimal text** of a byte string: two lower-case digits for every
byte, nothing between them. -/
def hex (bytes : Bytes) : String :=
  String.ofList (bytes.flatMap hexDigits)

/-- The bytes of a text in UTF-8. -/
def utf8 (text : String) : Bytes :=
  text.toUTF8.data.toList

end KeyDerivation
