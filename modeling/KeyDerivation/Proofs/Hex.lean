import KeyDerivation.Bytes

/-!
# Reading back hexadecimal text

The hexadecimal text of a byte string has two digits for every byte, all of them lower-case
(`KeyDerivation.length_hex`, `KeyDerivation.mem_lowerHexDigits_of_mem_hex`), and different strings
have different texts (`KeyDerivation.hex_inj`). So a text in upper case, or of an odd length, is the
text of no byte string at all. Any other text of lower-case digits is the text of one
(`KeyDerivation.exists_hex_eq_iff`).
-/

namespace KeyDerivation

/-- The digits of hexadecimal text, each at the place of its value. -/
def lowerHexDigits : List Char := "0123456789abcdef".toList

/-! ### Digits -/

theorem lowerHexDigits_eq : lowerHexDigits = (List.range 16).map Nat.digitChar := by decide

theorem mem_lowerHexDigits_iff {c : Char} :
    c ∈ lowerHexDigits ↔ ∃ n < 16, Nat.digitChar n = c := by
  rw [lowerHexDigits_eq, List.mem_map]
  exact exists_congr fun n => and_congr_left' List.mem_range

theorem idxOf_digitChar : ∀ n < 16, lowerHexDigits.idxOf (Nat.digitChar n) = n := by decide

/-- A digit tells its value. -/
theorem digitChar_inj {m n : Nat} (hm : m < 16) (hn : n < 16) :
    Nat.digitChar m = Nat.digitChar n ↔ m = n := by
  refine ⟨fun h => ?_, fun h => h ▸ rfl⟩
  rw [← idxOf_digitChar m hm, ← idxOf_digitChar n hn, h]

theorem high_digit_lt (b : UInt8) : b.toNat / 16 < 16 := by
  have := b.toNat_lt
  omega

theorem low_digit_lt (b : UInt8) : b.toNat % 16 < 16 := Nat.mod_lt _ (by decide)

/-- The two digits of a byte tell the byte. -/
theorem hexDigits_inj {b b' : UInt8} : hexDigits b = hexDigits b' ↔ b = b' := by
  refine ⟨fun h => ?_, fun h => h ▸ rfl⟩
  obtain ⟨hhigh, hlow, -⟩ : _ ∧ _ ∧ _ := by simpa only [hexDigits, List.cons.injEq] using h
  rw [digitChar_inj (high_digit_lt b) (high_digit_lt b')] at hhigh
  rw [digitChar_inj (low_digit_lt b) (low_digit_lt b')] at hlow
  refine UInt8.toNat_inj.mp ?_
  omega

/-- Any two digits are those of a byte. -/
theorem exists_hexDigits_eq {c c' : Char} (hc : c ∈ lowerHexDigits) (hc' : c' ∈ lowerHexDigits) :
    ∃ b, hexDigits b = [c, c'] := by
  obtain ⟨high, hhigh, rfl⟩ := mem_lowerHexDigits_iff.mp hc
  obtain ⟨low, hlow, rfl⟩ := mem_lowerHexDigits_iff.mp hc'
  have hbyte : (UInt8.ofNat (16 * high + low)).toNat = 16 * high + low :=
    UInt8.toNat_ofNat_of_lt' (by change _ < 256; omega)
  refine ⟨.ofNat (16 * high + low), ?_⟩
  rw [hexDigits, hbyte, Nat.mul_add_div (by decide), Nat.div_eq_of_lt hlow, Nat.add_zero,
    Nat.mul_add_mod, Nat.mod_eq_of_lt hlow]

/-! ### Texts -/

theorem toList_hex (bytes : Bytes) : (hex bytes).toList = bytes.flatMap hexDigits :=
  String.toList_ofList

/-- **A text has two digits for every byte.** -/
theorem length_hex (bytes : Bytes) : (hex bytes).length = 2 * bytes.length := by
  rw [← String.length_toList, toList_hex]
  induction bytes with
  | nil => rfl
  | cons b bytes ih =>
    rw [List.flatMap_cons, List.length_append, ih, List.length_cons]
    change 2 + 2 * bytes.length = 2 * (bytes.length + 1)
    omega

/-- **All digits of a text are lower-case.** -/
theorem mem_lowerHexDigits_of_mem_hex {bytes : Bytes} {c : Char} (hc : c ∈ (hex bytes).toList) :
    c ∈ lowerHexDigits := by
  rw [toList_hex] at hc
  obtain ⟨b, -, hdigit⟩ := List.mem_flatMap.mp hc
  rcases List.mem_cons.mp hdigit with rfl | hdigit
  · exact mem_lowerHexDigits_iff.mpr ⟨_, high_digit_lt b, rfl⟩
  · exact mem_lowerHexDigits_iff.mpr ⟨_, low_digit_lt b, (List.mem_singleton.mp hdigit).symm⟩

/-- Twice as many digits as there are to be bytes are those of some bytes. -/
theorem exists_flatMap_hexDigits_eq {n : Nat} {digits : List Char} (hlength : digits.length = 2 * n)
    (hdigits : digits ⊆ lowerHexDigits) :
    ∃ bytes : Bytes, bytes.length = n ∧ bytes.flatMap hexDigits = digits := by
  induction n generalizing digits with
  | zero => exact ⟨[], rfl, (List.length_eq_zero_iff.mp hlength).symm⟩
  | succ n ih =>
    -- Two digits make the first byte.
    match digits, hlength, hdigits with
    | c :: c' :: rest, hlength, hdigits =>
      simp only [List.length_cons, List.cons_subset] at hlength hdigits
      obtain ⟨hc, hc', hrest⟩ := hdigits
      obtain ⟨b, hb⟩ := exists_hexDigits_eq hc hc'
      obtain ⟨bytes, rfl, rfl⟩ := ih (by omega) hrest
      exact ⟨b :: bytes, rfl, by rw [List.flatMap_cons, hb]; rfl⟩

/-- **The texts of byte strings** of a given length are those of lower-case digits, two for every
byte. -/
theorem exists_hex_eq_iff {n : Nat} {digits : List Char} :
    (∃ bytes : Bytes, bytes.length = n ∧ hex bytes = String.ofList digits) ↔
      digits.length = 2 * n ∧ digits ⊆ lowerHexDigits := by
  constructor
  · rintro ⟨bytes, rfl, htext⟩
    have hdigits : (hex bytes).toList = digits := by rw [htext, String.toList_ofList]
    rw [← hdigits, String.length_toList]
    exact ⟨length_hex bytes, fun c => mem_lowerHexDigits_of_mem_hex⟩
  · rintro ⟨hlength, hdigits⟩
    obtain ⟨bytes, hbytes, htext⟩ := exists_flatMap_hexDigits_eq hlength hdigits
    exact ⟨bytes, hbytes, congrArg String.ofList htext⟩

/-- **Different byte strings have different texts.** -/
theorem hex_inj {bytes bytes' : Bytes} : hex bytes = hex bytes' ↔ bytes = bytes' := by
  refine ⟨fun h => ?_, fun h => h ▸ rfl⟩
  have hdigits : bytes.flatMap hexDigits = bytes'.flatMap hexDigits := by
    rw [← toList_hex, ← toList_hex, h]
  clear h
  induction bytes generalizing bytes' with
  | nil =>
    cases bytes' with
    | nil => rfl
    | cons b' rest' => exact absurd hdigits nofun
  | cons b rest ih =>
    cases bytes' with
    | nil => exact absurd hdigits nofun
    | cons b' rest' =>
      -- Both first bytes have two digits, so the texts fall apart at the same place.
      obtain ⟨hfirst, hrest⟩ := List.append_inj hdigits rfl
      rw [hexDigits_inj.mp hfirst, ih hrest]

end KeyDerivation
