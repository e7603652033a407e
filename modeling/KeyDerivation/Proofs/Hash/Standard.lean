import KeyDerivation.Bytes
import Mathlib.Data.Nat.Find
import Mathlib.Data.Nat.Nth
import Mathlib.Data.Nat.Prime.Defs

/-!
# The compression functions as the standard has them

What FIPS 180-4 says about one block of SHA-1, SHA-256 and SHA-512 (sections 6.1.2, 6.2.2 and
6.4.2), on strings of bits and without arrays or loops:

* a word of the message schedule is a function of its number, which refers to words with smaller
  numbers (`KeyDerivation.Standard.sha1Word`, `KeyDerivation.Standard.Family.word`);
* the working variables after `t` rounds are the `t`-fold iterate of a round
  (`KeyDerivation.Standard.iterate`);
* the intermediate hash value is their sum with the one before.

A sum of strings of `w` bits is taken modulo `2 ^ w`. A hash value is the first one of a message
(`KeyDerivation.Standard.sha1Initial`, `KeyDerivation.Standard.Family.initial`), and the last one of
a message is its digest, byte by byte (`KeyDerivation.Standard.Five.digest`,
`KeyDerivation.Standard.Eight.digest`).

The constants of the SHA-2 family are not listed here, but said to be what they are listed as: bits
of the roots of the first primes (`KeyDerivation.Standard.rootBits`).
-/

namespace KeyDerivation

namespace Standard

variable {w : Nat}

/-! ### What the three functions share -/

/-- **The bits of bytes**, the first byte in front. Of more bytes than fit, these are the last. -/
def ofBytes (bytes : Bytes) : BitVec w :=
  bytes.foldl (fun x b => (x ++ b.toBitVec).setWidth w) 0#w

/-- Word `t` of a block. -/
def blockWord (block : Bytes) (t : Nat) : BitVec w :=
  ofBytes ((block.drop (t * (w / 8))).take (w / 8))

/-- **The bytes of a string of bits**, most significant first: each byte is eight bits of it. -/
def bytes (x : BitVec w) : Bytes :=
  List.ofFn fun i : Fin (w / 8) => UInt8.ofBitVec (x.extractLsb' (w - 8 * (i + 1)) 8)

/-- Choice, section 4.1. -/
def choice (x y z : BitVec w) : BitVec w := (x &&& y) ^^^ (~~~x &&& z)

/-- Parity, section 4.1.1. -/
def parity (x y z : BitVec w) : BitVec w := x ^^^ y ^^^ z

/-- Majority, section 4.1. -/
def majority (x y z : BitVec w) : BitVec w := (x &&& y) ^^^ (x &&& z) ^^^ (y &&& z)

/-- **What `t` rounds make** of the working variables. -/
def iterate {V : Type} (round : Nat → V → V) (start : V) : Nat → V
  | 0 => start
  | t + 1 => round t (iterate round start t)

/-! ### SHA-1 -/

/-- Five words. -/
structure Five (w : Nat) where
  a : BitVec w
  b : BitVec w
  c : BitVec w
  d : BitVec w
  e : BitVec w

/-- **The digest** that a hash value is, one word after the other, section 6.1.2. -/
def Five.digest (v : Five w) : Bytes :=
  bytes v.a ++ bytes v.b ++ bytes v.c ++ bytes v.d ++ bytes v.e

/-- The initial hash value, section 5.3.1. -/
def sha1Initial : Five 32 :=
  ⟨0x67452301#32, 0xefcdab89#32, 0x98badcfe#32, 0x10325476#32, 0xc3d2e1f0#32⟩

/-- The function of round `t`, section 4.1.1. -/
def sha1Function (t : Nat) : BitVec 32 → BitVec 32 → BitVec 32 → BitVec 32 :=
  if t ≤ 19 then choice else if t ≤ 39 then parity else if t ≤ 59 then majority else parity

/-- The constant of round `t`, section 4.2.1. -/
def sha1Constant (t : Nat) : BitVec 32 :=
  if t ≤ 19 then 0x5a827999#32 else if t ≤ 39 then 0x6ed9eba1#32
  else if t ≤ 59 then 0x8f1bbcdc#32 else 0xca62c1d6#32

/-- **Word `t` of the message schedule**, section 6.1.2. -/
def sha1Word (block : Bytes) (t : Nat) : BitVec 32 :=
  if t < 16 then blockWord block t
  else
    (sha1Word block (t - 3) ^^^ sha1Word block (t - 8) ^^^ sha1Word block (t - 14) ^^^
      sha1Word block (t - 16)).rotateLeft 1

/-- Round `t` with the schedule word `x`, section 6.1.2. -/
def sha1Round (t : Nat) (x : BitVec 32) (v : Five 32) : Five 32 :=
  { a := v.a.rotateLeft 5 + sha1Function t v.b v.c v.d + v.e + sha1Constant t + x
    b := v.a
    c := v.b.rotateLeft 30
    d := v.c
    e := v.d }

/-- **The intermediate hash value of SHA-1** after a block, section 6.1.2. -/
def sha1 (hash : Five 32) (block : Bytes) : Five 32 :=
  let v := iterate (fun t => sha1Round t (sha1Word block t)) hash 80
  ⟨v.a + hash.a, v.b + hash.b, v.c + hash.c, v.d + hash.d, v.e + hash.e⟩

/-! ### The SHA-2 family -/

/-- Eight words. -/
structure Eight (w : Nat) where
  a : BitVec w
  b : BitVec w
  c : BitVec w
  d : BitVec w
  e : BitVec w
  f : BitVec w
  g : BitVec w
  h : BitVec w

/-- **The digest** that a hash value is, one word after the other, sections 6.2.2 and 6.4.2. -/
def Eight.digest (v : Eight w) : Bytes :=
  bytes v.a ++ bytes v.b ++ bytes v.c ++ bytes v.d ++ bytes v.e ++ bytes v.f ++ bytes v.g ++
    bytes v.h

/-- The greatest number whose power `k` is at most `x`. -/
def root (k x : Nat) : Nat := Nat.findGreatest (fun r => r ^ k ≤ x) x

/-- **The first `w` bits of the fractional part of the root** of order `k` of prime number `t`,
counted from zero. -/
noncomputable def rootBits (k w t : Nat) : BitVec w :=
  BitVec.ofNat w (root k (Nat.nth Nat.Prime t * 2 ^ (k * w)))

/-- The square roots of the first eight primes, sections 5.3.3 and 5.3.5. -/
noncomputable def squareRoots (w : Nat) : Eight w :=
  ⟨rootBits 2 w 0, rootBits 2 w 1, rootBits 2 w 2, rootBits 2 w 3, rootBits 2 w 4, rootBits 2 w 5,
    rootBits 2 w 6, rootBits 2 w 7⟩

/-- **What a member of the family chooses**: the functions and constants of sections 4.1.2,
4.1.3, 4.2.2 and 4.2.3, the initial hash value and the number of rounds. -/
structure Family (w : Nat) where
  bigSigma0 : BitVec w → BitVec w
  bigSigma1 : BitVec w → BitVec w
  smallSigma0 : BitVec w → BitVec w
  smallSigma1 : BitVec w → BitVec w
  constant : Nat → BitVec w
  initial : Eight w
  rounds : Nat

namespace Family

variable (family : Family w)

/-- **Word `t` of the message schedule**, sections 6.2.2 and 6.4.2. -/
def word (block : Bytes) (t : Nat) : BitVec w :=
  if t < 16 then blockWord block t
  else
    family.smallSigma1 (word block (t - 2)) + word block (t - 7) +
      family.smallSigma0 (word block (t - 15)) + word block (t - 16)

/-- A round with the constant `k` and the schedule word `x`, sections 6.2.2 and 6.4.2. -/
def round (k x : BitVec w) (v : Eight w) : Eight w :=
  let t1 := v.h + family.bigSigma1 v.e + choice v.e v.f v.g + k + x
  let t2 := family.bigSigma0 v.a + majority v.a v.b v.c
  { a := t1 + t2
    b := v.a
    c := v.b
    d := v.c
    e := v.d + t1
    f := v.e
    g := v.f
    h := v.g }

/-- **The intermediate hash value** after a block, sections 6.2.2 and 6.4.2. -/
def hash (hash : Eight w) (block : Bytes) : Eight w :=
  let v := iterate (fun t => family.round (family.constant t) (family.word block t)) hash
    family.rounds
  ⟨v.a + hash.a, v.b + hash.b, v.c + hash.c, v.d + hash.d, v.e + hash.e, v.f + hash.f,
    v.g + hash.g, v.h + hash.h⟩

end Family

/-- The choices of SHA-256. -/
noncomputable def sha256 : Family 32 where
  bigSigma0 x := x.rotateRight 2 ^^^ x.rotateRight 13 ^^^ x.rotateRight 22
  bigSigma1 x := x.rotateRight 6 ^^^ x.rotateRight 11 ^^^ x.rotateRight 25
  smallSigma0 x := x.rotateRight 7 ^^^ x.rotateRight 18 ^^^ x >>> 3
  smallSigma1 x := x.rotateRight 17 ^^^ x.rotateRight 19 ^^^ x >>> 10
  constant := rootBits 3 32
  initial := squareRoots 32
  rounds := 64

/-- The choices of SHA-512. -/
noncomputable def sha512 : Family 64 where
  bigSigma0 x := x.rotateRight 28 ^^^ x.rotateRight 34 ^^^ x.rotateRight 39
  bigSigma1 x := x.rotateRight 14 ^^^ x.rotateRight 18 ^^^ x.rotateRight 41
  smallSigma0 x := x.rotateRight 1 ^^^ x.rotateRight 8 ^^^ x >>> 7
  smallSigma1 x := x.rotateRight 19 ^^^ x.rotateRight 61 ^^^ x >>> 6
  constant := rootBits 3 64
  initial := squareRoots 64
  rounds := 80

end Standard

end KeyDerivation
