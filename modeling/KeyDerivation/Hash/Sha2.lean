import KeyDerivation.Hash.Iterated
import KeyDerivation.Hash.Schedule

/-!
# The SHA-2 family

SHA-256 and SHA-512 (FIPS 180-4, sections 6.2 and 6.4) are one construction at two
word sizes: eight chaining words, blocks of sixteen words, and rounds that differ
only in the rotations of four functions, in their number and in their constants.
`KeyDerivation.Sha2` holds these choices and `KeyDerivation.Sha2.compress` is the
compression function they determine. The two members of the family are in
`KeyDerivation.Hash.Sha256` and `KeyDerivation.Hash.Sha512`.
-/

namespace KeyDerivation

/-- Eight words: a chaining value, or the words a round works on. -/
structure Octet (W : Type) where
  a : W
  b : W
  c : W
  d : W
  e : W
  f : W
  g : W
  h : W
  deriving DecidableEq

namespace Octet

variable {W : Type}

/-- Eight times the same word. -/
def replicate (x : W) : Octet W := ⟨x, x, x, x, x, x, x, x⟩

/-- Wordwise addition. -/
def add [Add W] (x y : Octet W) : Octet W :=
  ⟨x.a + y.a, x.b + y.b, x.c + y.c, x.d + y.d, x.e + y.e, x.f + y.f, x.g + y.g, x.h + y.h⟩

/-- The words in order. -/
def toList (x : Octet W) : List W := [x.a, x.b, x.c, x.d, x.e, x.f, x.g, x.h]

end Octet

/-- **A member of the SHA-2 family**: its rounds beyond the sixteenth, the four
functions that rotate and shift, a constant for every round and the initial
chaining value. -/
structure Sha2 (W : Type) where
  /-- How many schedule words, and so rounds, there are beyond sixteen. -/
  extraRounds : Nat
  bigSigma0 : W → W
  bigSigma1 : W → W
  smallSigma0 : W → W
  smallSigma1 : W → W
  constants : Vector W (16 + extraRounds)
  initial : Octet W

namespace Sha2

variable {W : Type} [Word W]

/-- Bitwise choice: `x` selects between `y` and `z`. -/
def choose (x y z : W) : W := (x &&& y) ^^^ (~~~x &&& z)

/-- Bitwise majority. -/
def majority (x y z : W) : W := (x &&& y) ^^^ (x &&& z) ^^^ (y &&& z)

variable (family : Sha2 W)

/-- The next schedule word, from the words sixteen, fifteen, seven and two places
back. -/
def nextWord (k : Nat) (words : Vector W (16 + k)) : W :=
  words[k] + family.smallSigma0 words[k + 1] + words[k + 9] + family.smallSigma1 words[k + 14]

/-- A round with the constant `k` on the schedule word `w`. -/
def round (k w : W) (v : Octet W) : Octet W :=
  let t1 := v.h + family.bigSigma1 v.e + choose v.e v.f v.g + k + w
  let t2 := family.bigSigma0 v.a + majority v.a v.b v.c
  { a := t1 + t2
    b := v.a
    c := v.b
    d := v.c
    e := v.d + t1
    f := v.e
    g := v.f
    h := v.g }

/-- **The compression function**: all rounds over the schedule of the block, and the
outcome added to the chaining value. -/
def compress (chain : Octet W) (block : Buffer (16 * Word.width W)) : Octet W :=
  let words := Schedule.extend family.nextWord (Word.ofBlock block) family.extraRounds
  chain.add <| Nat.fold (16 + family.extraRounds)
    (fun t h v => family.round family.constants[t] words[t] v) chain

/-- The next schedule word, from words asked for by their distance. -/
def nextWord? (back : Nat → Option W) : Option W := do
  return (← back 16) + family.smallSigma0 (← back 15) + (← back 7) + family.smallSigma1 (← back 2)

/-- The compression function over a schedule in place, refused if it ever looks at a place that
does not exist or has not been written. -/
def compressInPlace? (chain : Octet W) (block : Buffer (16 * Word.width W)) :
    Option (Octet W) := do
  let places ← Schedule.inPlace? family.nextWord? (Word.ofBlock block) family.extraRounds
  let v ← Schedule.rounds?
    (fun t v => do return family.round (← family.constants[t]?) (← places.read? t) v)
    (16 + family.extraRounds) chain
  return chain.add v

/-- **A member of the family as an iterated hash function.** Sizes are counted in
words: sixteen for a block, eight for a digest, two for the length field. -/
def toIteratedHash : IteratedHash where
  blockLength := 16 * Word.width W
  digestLength := 8 * Word.width W
  lengthWidth := 2 * Word.width W
  Chain := Octet W
  initial := family.initial
  blank := .replicate (Word.ofNat 0)
  compress := family.compress
  spell chain := Buffer.ofBytes (Word.spell chain.toList) (Word.length_spell _)
  blockLength_pos := Nat.mul_pos (by decide) Word.width_pos
  lengthWidth_le := Nat.mul_le_mul_right _ (by decide)

end Sha2

end KeyDerivation
