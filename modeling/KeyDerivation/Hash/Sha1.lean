import KeyDerivation.Hash.Iterated
import KeyDerivation.Hash.Schedule

/-!
# SHA-1

The hash function of FIPS 180-4, section 6.1: blocks of 64 bytes, five chaining
words of 32 bits, eighty rounds in four stages of twenty. It serves here as the
core of a keyed function for existing protocols only; its collision resistance is
broken.
-/

namespace KeyDerivation

namespace Sha1

/-- The five words a round works on, and the five words of a chaining value. -/
structure Quintet where
  a : UInt32
  b : UInt32
  c : UInt32
  d : UInt32
  e : UInt32
  deriving DecidableEq

namespace Quintet

/-- Wordwise addition. -/
def add (x y : Quintet) : Quintet :=
  ⟨x.a + y.a, x.b + y.b, x.c + y.c, x.d + y.d, x.e + y.e⟩

/-- The words in order. -/
def toList (x : Quintet) : List UInt32 := [x.a, x.b, x.c, x.d, x.e]

end Quintet

/-- The initial chaining value. -/
def initial : Quintet := ⟨0x67452301, 0xefcdab89, 0x98badcfe, 0x10325476, 0xc3d2e1f0⟩

/-! ### Compression -/

/-- The next schedule word: the words three, eight, fourteen and sixteen places back,
combined and rotated by one bit. -/
def nextWord (k : Nat) (words : Vector UInt32 (16 + k)) : UInt32 :=
  Word.rotateLeft (words[k + 13] ^^^ words[k + 8] ^^^ words[k + 2] ^^^ words[k + 0]) 1

/-- The bitwise function of round `t`: choice, parity, majority and parity again,
twenty rounds each. Choice and majority combine terms that are never both set, or
whose overlap changes nothing, so they are written with "or". -/
def mix (t : Nat) (b c d : UInt32) : UInt32 :=
  if t < 20 then (b &&& c) ||| (~~~b &&& d)
  else if t < 40 then b ^^^ c ^^^ d
  else if t < 60 then (b &&& c) ||| (b &&& d) ||| (c &&& d)
  else b ^^^ c ^^^ d

/-- The constant of round `t`. -/
def constant (t : Nat) : UInt32 :=
  if t < 20 then 0x5a827999
  else if t < 40 then 0x6ed9eba1
  else if t < 60 then 0x8f1bbcdc
  else 0xca62c1d6

/-- Round `t` on the schedule word `w`. -/
def round (t : Nat) (w : UInt32) (v : Quintet) : Quintet :=
  { a := Word.rotateLeft v.a 5 + mix t v.b v.c v.d + v.e + constant t + w
    b := v.a
    c := Word.rotateLeft v.b 30
    d := v.c
    e := v.d }

/-- **The compression function**: eighty rounds over the schedule of the block, and
the outcome added to the chaining value. -/
def compress (chain : Quintet) (block : Buffer 64) : Quintet :=
  let words := Schedule.extend nextWord (Word.ofBlock block) 64
  chain.add (Nat.fold 80 (fun t h v => round t words[t] v) chain)

/-- The next schedule word, from words asked for by their distance. -/
def nextWord? (back : Nat → Option UInt32) : Option UInt32 := do
  return Word.rotateLeft ((← back 3) ^^^ (← back 8) ^^^ (← back 14) ^^^ (← back 16)) 1

/-- The compression function over a schedule in place, refused if it ever looks at a place that
does not exist or has not been written. -/
def compressInPlace? (chain : Quintet) (block : Buffer 64) : Option Quintet := do
  let places ← Schedule.inPlace? nextWord? (Word.ofBlock block) 64
  let v ← Schedule.rounds? (fun t v => do return round t (← places.read? t) v) 80 chain
  return chain.add v

end Sha1

/-- **SHA-1** as an iterated hash function. -/
def sha1 : IteratedHash where
  blockLength := 64
  digestLength := 20
  lengthWidth := 8
  Chain := Sha1.Quintet
  initial := Sha1.initial
  blank := ⟨0, 0, 0, 0, 0⟩
  compress := Sha1.compress
  spell chain := Buffer.ofBytes (Word.spell chain.toList) (Word.length_spell _)

end KeyDerivation
