import KeyDerivation.Journal

/-!
# The limits on a request

A derivation runs at least one round and yields at least one byte, and its blocks
are numbered by a word of 32 bits starting from one, so there are at most
`2 ^ 32 - 1` of them. A request is checked against these limits, in this order,
before anything else happens; the first limit it breaks is reported and logged.

Lengths are natural numbers. The longest permitted length is a word of 64 bits, the
product of two words; it is exact for every width up to `2 ^ 32 + 1`.
-/

namespace KeyDerivation

/-- **The longest key** a pseudorandom function of the given width can yield:
`2 ^ 32 - 1` blocks. -/
def maxKeyLength (width : Nat) : UInt64 := 4294967295 * UInt64.ofNat width

/-- The product is exact for every width up to `2 ^ 32 + 1`. -/
theorem toNat_maxKeyLength {width : Nat} (h : width ≤ 4294967297) :
    (maxKeyLength width).toNat = 4294967295 * width := by
  have hwidth : (UInt64.ofNat width).toNat = width := UInt64.toNat_ofNat_of_lt' (by
    show width < 18446744073709551616
    omega)
  rw [maxKeyLength, UInt64.toNat_mul, hwidth]
  exact Nat.mod_eq_of_lt (by
    show 4294967295 * width < 18446744073709551616
    omega)

/-- **The first limit a request breaks**, if it breaks one. -/
def limitFault? (width : Nat) (rounds : UInt32) (keyLength : Nat) : Option LimitFault :=
  if rounds = 0 then some .zeroRounds
  else if keyLength = 0 then some .emptyKey
  else if (maxKeyLength width).toNat < keyLength then
    some (.keyTooLong keyLength (maxKeyLength width).toNat)
  else none

/-- Turns a request down. -/
def reject {α : Type} (fault : LimitFault) : Journaled (Except KdfError α) := do
  emit (.rejected fault)
  return .error (.limit fault)

/-- **Checking a request** without deriving anything. Only a failure is logged. -/
def checkLimits (width : Nat) (rounds : UInt32) (keyLength : Nat) :
    Journaled (Except KdfError Unit) :=
  match limitFault? width rounds keyLength with
  | some fault => reject fault
  | none => return .ok ()

theorem limits_of_limitFault?_eq_none {width : Nat} {rounds : UInt32} {keyLength : Nat}
    (h : limitFault? width rounds keyLength = none) :
    rounds ≠ 0 ∧ 0 < keyLength ∧ keyLength ≤ (maxKeyLength width).toNat := by
  unfold limitFault? at h
  by_cases hr : rounds = 0
  · simp [hr] at h
  by_cases hk : keyLength = 0
  · simp [hr, hk] at h
  by_cases hm : (maxKeyLength width).toNat < keyLength
  · simp [hr, hk, hm] at h
  exact ⟨hr, by omega, by omega⟩

/-- A request that passes the check breaks no limit. -/
theorem limitFault?_eq_none_of_checkLimits {width : Nat} {rounds : UInt32} {keyLength : Nat}
    {journal : Journal} (h : (checkLimits width rounds keyLength journal).1 = .ok ()) :
    limitFault? width rounds keyLength = none := by
  cases hfault : limitFault? width rounds keyLength with
  | none => rfl
  | some fault =>
    rw [checkLimits, hfault] at h
    exact absurd h nofun

/-- **A request is within the limits** when none of them is broken. -/
theorem limitFault?_eq_none {width : Nat} {rounds : UInt32} {keyLength : Nat}
    (hrounds : rounds ≠ 0) (hpos : 0 < keyLength)
    (hmax : keyLength ≤ (maxKeyLength width).toNat) :
    limitFault? width rounds keyLength = none := by
  rw [limitFault?, if_neg hrounds, if_neg (Nat.ne_of_gt hpos), if_neg (Nat.not_lt.mpr hmax)]

end KeyDerivation
