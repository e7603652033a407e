import KeyDerivation.Hash.Schedule

/-!
# A schedule in place is never refused

A schedule that is grown word by word can only look at words that are there. In place it could
look anywhere, and it checks. This file shows that the checks never fail when a word looks back
at most sixteen places: the part that has been filled is always the grown schedule as far as it
has got (`KeyDerivation.Schedule.Places.Holds`), and the place to be written is the first one
behind it.

So filling all places succeeds, and every place can be read afterwards
(`KeyDerivation.Schedule.exists_inPlace?_eq`).
-/

namespace KeyDerivation

namespace Schedule

variable {W : Type}

namespace Places

variable {n : Nat} {places : Places W n} {words : List W}

/-- **The first places hold these words**, and nothing has been written behind them. -/
def Holds (places : Places W n) (words : List W) : Prop :=
  ∀ t (ht : t < n), places[t] = words[t]?

theorem holds_blank : (blank n : Places W n).Holds [] := fun _ _ => Vector.getElem_replicate _

theorem Holds.read?_eq (h : places.Holds words) {t : Nat} (ht : t < n) :
    places.read? t = words[t]? := by
  rw [read?, Vector.getElem?_eq_getElem ht, h t ht]
  rfl

/-- Looking back from the first free place, one sees the words. -/
theorem Holds.readBack?_eq (h : places.Holds words) (hroom : words.length ≤ n) {back : Nat}
    (hpos : 0 < back) (hback : back ≤ words.length) :
    places.readBack? words.length back = some words[words.length - back] := by
  rw [readBack?, if_pos hback, h.read?_eq (by omega), List.getElem?_eq_getElem]

/-- **Writing to the first free place** adds a word behind the others. -/
theorem Holds.exists_write? (h : places.Holds words) (hroom : words.length < n) (x : W) :
    ∃ places', places.write? words.length x = some places' ∧ places'.Holds (words ++ [x]) := by
  refine ⟨_, dif_pos hroom, fun t ht => ?_⟩
  rw [Vector.getElem_set, List.getElem?_append]
  rcases Nat.lt_trichotomy t words.length with hlt | rfl | hgt
  · rw [if_neg (Nat.ne_of_gt hlt), if_pos hlt, h t ht]
  · rw [if_pos rfl, if_neg (Nat.lt_irrefl _), Nat.sub_self]
    rfl
  · have hnone : ¬t < words.length := Nat.not_lt.mpr (Nat.le_of_lt hgt)
    rw [if_neg (Nat.ne_of_lt hgt), if_neg hnone, h t ht, List.getElem?_eq_none (Nat.le_of_lt hgt),
      List.getElem?_eq_none (by simp; omega)]

/-- Writing words one after the other adds them all. -/
theorem Holds.exists_writeAll? (h : places.Holds words) (more : List W)
    (hroom : words.length + more.length ≤ n) :
    ∃ places', writeAll? more words.length places = some places' ∧
      places'.Holds (words ++ more) := by
  induction more generalizing places words with
  | nil => exact ⟨places, rfl, by rwa [List.append_nil]⟩
  | cons x rest ih =>
    rw [List.length_cons] at hroom
    obtain ⟨written, hwrite, hwritten⟩ := h.exists_write? (by omega) x
    obtain ⟨final, hrest, hfinal⟩ := ih hwritten (by simp; omega)
    refine ⟨final, ?_, by simpa using hfinal⟩
    rw [List.length_append, List.length_singleton] at hrest
    rw [writeAll?, hwrite]
    exact hrest

end Places

/-! ### Filling the places -/

section Fill

variable {next : (k : Nat) → Vector W (16 + k) → W} {next? : (Nat → Option W) → Option W}

/-- **Looking back far enough is enough**: a step that may be refused does what a step of the
grown schedule does, as soon as it is told the last sixteen words. -/
def LooksBack (next? : (Nat → Option W) → Option W) (next : (k : Nat) → Vector W (16 + k) → W) :
    Prop :=
  ∀ (k : Nat) (words : Vector W (16 + k)) (back : Nat → Option W),
    (∀ d (_ : 0 < d) (_ : d ≤ 16), back d = some words[16 + k - d]) →
      next? back = some (next k words)

/-- **A run of steps**: places that hold the schedule as far as it has got hold it further on
afterwards, and no step is refused. -/
theorem Places.Holds.exists_fill? (hnext : LooksBack next? next) {first : Vector W 16} {n : Nat}
    (count : Nat) {k : Nat} {places : Places W n}
    (h : places.Holds (extend next first k).toList) (hroom : 16 + k + count ≤ n) :
    ∃ places', fill? next? count (16 + k) places = some places' ∧
      places'.Holds (extend next first (k + count)).toList := by
  induction count generalizing k places with
  | zero => exact ⟨places, rfl, h⟩
  | succ count ih =>
    have hlength : (extend next first k).toList.length = 16 + k := Vector.length_toList
    have hstep : next? (places.readBack? (16 + k)) = some (next k (extend next first k)) := by
      refine hnext k _ _ fun d hpos hd => ?_
      have hread := h.readBack?_eq (by omega) hpos (by omega)
      simpa only [hlength, Vector.getElem_toList] using hread
    obtain ⟨written, hwrite, hwritten⟩ :=
      h.exists_write? (by omega) (next k (extend next first k))
    rw [hlength] at hwrite
    rw [← Vector.toList_push] at hwritten
    obtain ⟨final, hrest, hfinal⟩ := ih (k := k + 1) hwritten (by omega)
    refine ⟨final, ?_, ?_⟩
    · simp only [fill?, hstep, Option.bind_eq_bind, Option.bind_some, hwrite]
      exact hrest
    · rwa [Nat.add_assoc, Nat.add_comm 1 count] at hfinal

/-- **The schedule in place is the grown schedule**: no step is refused, and every place can be
read afterwards. -/
theorem exists_inPlace?_eq (hnext : LooksBack next? next) (first : Vector W 16) (k : Nat) :
    ∃ places, inPlace? next? first k = some places ∧
      ∀ t (ht : t < 16 + k), places.read? t = some (extend next first k)[t] := by
  have hfirst : first.toList.length = 16 := Vector.length_toList
  obtain ⟨begun, hwrite, hbegun⟩ := Places.holds_blank.exists_writeAll? first.toList
    (show [].length + first.toList.length ≤ 16 + k by simp)
  obtain ⟨final, hfill, hfinal⟩ := Places.Holds.exists_fill? (k := 0) hnext k hbegun (by omega)
  rw [List.length_nil] at hwrite
  rw [Nat.zero_add] at hfinal
  refine ⟨final, ?_, fun t ht => ?_⟩
  · rw [inPlace?, hwrite]
    exact hfill
  · rw [hfinal.read?_eq ht, List.getElem?_eq_getElem (by simpa using ht), Vector.getElem_toList]

end Fill

/-- Rounds that are never refused are just rounds. -/
theorem rounds?_eq {V : Type} (n : Nat) (round? : Nat → V → Option V)
    (round : (t : Nat) → t < n → V → V)
    (h : ∀ t (ht : t < n) (v : V), round? t v = some (round t ht v)) (v : V) :
    rounds? round? n v = some (Nat.fold n round v) := by
  induction n with
  | zero => rfl
  | succ n ih =>
    rw [rounds?, ih _ fun t ht v => h t (Nat.lt_succ_of_lt ht) v, Nat.fold_succ]
    exact h n (Nat.lt_succ_self n) _

end Schedule

end KeyDerivation
