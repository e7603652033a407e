import KeyDerivation.Hash.Sha256
import KeyDerivation.Hash.Sha512
import KeyDerivation.Proofs.Hash.Standard
import KeyDerivation.Proofs.Hash.Word
import Mathlib.Data.Nat.Prime.Basic

/-!
# The constants are bits of roots of primes

The round constants and the initial hash values of SHA-256 and SHA-512 are listed in tables. The
standard says where they come from: the round constants are the first bits of the fractional parts
of the cube roots of the first 64 and 80 primes, and the initial hash values those of the square
roots of the first eight. This file checks the tables against that.

A root is checked by taking powers of it and of its successor
(`KeyDerivation.Standard.Checked`), and a prime below `21 ^ 2` by dividing it by the numbers
below 21. Which prime has which number is read off the list of all primes up to a bound
(`KeyDerivation.Standard.nth_eq_of_filter_range`).
-/

namespace KeyDerivation

/-- The bits of eight words. -/
def Octet.bits {W : Type} [Word W] (x : Octet W) : Standard.Eight (8 * Word.width W) :=
  ⟨Word.bits x.a, Word.bits x.b, Word.bits x.c, Word.bits x.d, Word.bits x.e, Word.bits x.f,
    Word.bits x.g, Word.bits x.h⟩

namespace Standard

/-! ### The first primes -/

/-- **A list of all numbers of a kind up to a bound** holds them by number. -/
theorem nth_eq_of_filter_range {P : Nat → Prop} [DecidablePred P] {n i m : Nat}
    (h : ((List.range n).filter P)[i]? = some m) : Nat.nth P i = m := by
  induction n with
  | zero => exact absurd h nofun
  | succ n ih =>
    have hcount : ((List.range n).filter P).length = Nat.count P n := by
      rw [Nat.count_eq_card_filter_range]
      rfl
    rw [List.range_succ, List.filter_append, List.getElem?_append] at h
    split at h
    · exact ih h
    -- The last number of the range has all others of its kind before it.
    · rename_i hlast
      by_cases hn : P n
      · rw [List.filter_cons_of_pos (by simpa using hn), List.filter_nil,
          List.getElem?_eq_some_iff] at h
        obtain ⟨hlt, rfl⟩ := h
        rw [List.length_singleton] at hlt
        rw [List.getElem_singleton, show i = Nat.count P n by omega, Nat.nth_count hn]
      · rw [List.filter_cons_of_neg (by simpa using hn), List.filter_nil] at h
        exact absurd h nofun

/-- The first eighty primes. -/
def primes : List Nat :=
  [2, 3, 5, 7, 11, 13, 17, 19, 23, 29, 31, 37, 41, 43, 47, 53, 59, 61, 67, 71, 73, 79, 83, 89, 97,
    101, 103, 107, 109, 113, 127, 131, 137, 139, 149, 151, 157, 163, 167, 173, 179, 181, 191, 193,
    197, 199, 211, 223, 227, 229, 233, 239, 241, 251, 257, 263, 269, 271, 277, 281, 283, 293, 307,
    311, 313, 317, 331, 337, 347, 349, 353, 359, 367, 373, 379, 383, 389, 397, 401, 409]

/-- Dividing by the numbers below 21 tells the primes below `21 ^ 2`. -/
theorem prime_iff_of_lt {p : Nat} (hp : p < 441) :
    Nat.Prime p ↔ 2 ≤ p ∧ ∀ m < 21, 2 ≤ m → m < p → ¬m ∣ p := by
  constructor
  · intro hprime
    refine ⟨hprime.two_le, fun m _ hm hlt hdvd => ?_⟩
    rcases (Nat.dvd_prime hprime).mp hdvd with rfl | rfl
    · exact absurd hm (by decide)
    · exact Nat.lt_irrefl _ hlt
  · rintro ⟨htwo, hnone⟩
    refine Nat.prime_def_le_sqrt.mpr ⟨htwo, fun m hm hsqrt => ?_⟩
    have hlt : m < 21 := Nat.lt_of_le_of_lt hsqrt (Nat.sqrt_lt.mpr hp)
    exact hnone m hlt hm (Nat.lt_of_le_of_lt hsqrt (Nat.sqrt_lt_self htwo))

theorem filter_range_eq_primes : (List.range 410).filter (fun p => Nat.Prime p) = primes := by
  have htest : (List.range 410).filter (fun p => Nat.Prime p) =
      (List.range 410).filter (fun p => 2 ≤ p ∧ ∀ m < 21, 2 ≤ m → m < p → ¬m ∣ p) := by
    refine List.filter_congr fun p hp => ?_
    have hlt := List.mem_range.mp hp
    exact decide_eq_decide.mpr (prime_iff_of_lt (by omega))
  rw [htest]
  decide +kernel

theorem nth_prime_eq {t p : Nat} (h : primes[t]? = some p) : Nat.nth Nat.Prime t = p :=
  nth_eq_of_filter_range (filter_range_eq_primes ▸ h)

/-! ### Roots -/

theorem root_eq {k x r : Nat} (hk : k ≠ 0) (hle : r ^ k ≤ x) (hlt : x < (r + 1) ^ k) :
    root k x = r := by
  refine Nat.findGreatest_eq_iff.mpr ⟨?_, fun _ => hle, fun n hn _ hpow => ?_⟩
  · exact Nat.le_trans (Nat.le_self_pow hk r) hle
  · have hnext : (r + 1) ^ k ≤ n ^ k := Nat.pow_le_pow_left hn k
    omega

/-- What has to be checked of a table entry: behind the right integer part, which is below 8
for the primes and the roots in question, it makes the root. -/
def Checked (k w p entry : Nat) : Prop :=
  ∃ c < 8, (c * 2 ^ w + entry) ^ k ≤ p * 2 ^ (k * w) ∧
    p * 2 ^ (k * w) < (c * 2 ^ w + entry + 1) ^ k

instance (k w p entry : Nat) : Decidable (Checked k w p entry) :=
  inferInstanceAs (Decidable (∃ c < 8, _ ∧ _))

theorem rootBits_eq {k w t p entry : Nat} (hk : k ≠ 0) (hp : primes[t]? = some p)
    (h : Checked k w p entry) : rootBits k w t = BitVec.ofNat w entry := by
  obtain ⟨c, -, hle, hlt⟩ := h
  rw [rootBits, nth_prime_eq hp, root_eq hk hle hlt]
  exact BitVec.eq_of_toNat_eq (by simp)

/-- **A table whose entries are all checked** is the one of the standard. -/
theorem bits_eq_rootBits {W : Type} [Word W] {k n : Nat} {table : Vector W n} (hk : k ≠ 0)
    (hn : n ≤ 80)
    (h : ∀ pair ∈ primes.zip (table.toList.map Word.toNat),
      Checked k (8 * Word.width W) pair.1 pair.2) {t : Nat} (ht : t < n) :
    Word.bits table[t] = rootBits k (8 * Word.width W) t := by
  have htable : t < (table.toList.map Word.toNat).length := by simpa using ht
  have hprimes : t < primes.length := Nat.lt_of_lt_of_le ht hn
  have hpair : (primes[t], Word.toNat table[t]) ∈
      primes.zip (table.toList.map Word.toNat) := by
    have hboth : t < (primes.zip (table.toList.map Word.toNat)).length := by
      simpa using ⟨hprimes, ht⟩
    have hzip : (primes.zip (table.toList.map Word.toNat))[t] =
        (primes[t], Word.toNat table[t]) := by
      rw [List.getElem_zip, List.getElem_map, Vector.getElem_toList]
    exact hzip ▸ List.getElem_mem hboth
  rw [rootBits_eq hk (List.getElem?_eq_getElem hprimes) (h _ hpair), Word.bits]

/-! ### The tables -/

theorem bits_constants_sha256 {t : Nat} (ht : t < 64) :
    Word.bits Sha256.constants[t] = rootBits 3 32 t :=
  bits_eq_rootBits (by decide) (by decide) (by decide +kernel) ht

theorem bits_constants_sha512 {t : Nat} (ht : t < 80) :
    Word.bits Sha512.constants[t] = rootBits 3 64 t :=
  bits_eq_rootBits (by decide) (by decide) (by decide +kernel) ht

/-- Eight words that are all checked are those of the standard. -/
theorem bits_eq_squareRoots {W : Type} [Word W] {x : Octet W}
    (h : ∀ pair ∈ primes.zip (x.toList.map Word.toNat),
      Checked 2 (8 * Word.width W) pair.1 pair.2) :
    x.bits = squareRoots (8 * Word.width W) := by
  have hword {t : Nat} (ht : t < 8) :
      Word.bits #v[x.a, x.b, x.c, x.d, x.e, x.f, x.g, x.h][t] = rootBits 2 (8 * Word.width W) t :=
    bits_eq_rootBits (by decide) (by decide) h ht
  rw [squareRoots, ← hword (t := 0) (by decide), ← hword (t := 1) (by decide),
    ← hword (t := 2) (by decide), ← hword (t := 3) (by decide), ← hword (t := 4) (by decide),
    ← hword (t := 5) (by decide), ← hword (t := 6) (by decide), ← hword (t := 7) (by decide)]
  rfl

theorem bits_initial_sha256 : Sha256.family.initial.bits = squareRoots 32 :=
  bits_eq_squareRoots (by decide +kernel)

theorem bits_initial_sha512 : Sha512.family.initial.bits = squareRoots 64 :=
  bits_eq_squareRoots (by decide +kernel)

end Standard

end KeyDerivation
