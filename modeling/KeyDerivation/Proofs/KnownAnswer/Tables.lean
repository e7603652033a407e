import KeyDerivation.KnownAnswer.Tables
import KeyDerivation.Proofs.Derivation.Answer
import KeyDerivation.Proofs.KnownAnswer

/-!
# What the tables of known answers are good for

A table can be wrong in ways that have nothing to do with keys: with a number that stands twice, a
report does not tell which entry has failed, a request that breaks a limit is turned down whatever
the key, and a text that is no hexadecimal text passes no key. A table in which none of this is so
is well-formed (`KeyDerivation.KnownAnswer.WellFormed`), and at the end of the file the three tables
are shown to be.

Over a well-formed table, the derivation of the library never answers with an error, so a run says
one thing only: whether the texts are those of the keys that RFC 8018 defines
(`KeyDerivation.KnownAnswer.WellFormed.run_underTest_eq_ok_iff`).
-/

namespace KeyDerivation

namespace KnownAnswer

/-! ### Well-formed tables, and the derivation under test -/

/-- **A table is well-formed** for pseudorandom functions of a given width. -/
structure WellFormed (width : Nat) (table : List KnownAnswer) : Prop where
  /-- No number stands twice. -/
  nodup_id : (table.map KnownAnswer.id).Nodup
  /-- Every request is within the limits. -/
  limitFault?_eq_none : ∀ entry ∈ table, limitFault? width entry.rounds entry.keyLength = none
  /-- Every text is the one of a key of the right length. -/
  exists_key : ∀ entry ∈ table, ∃ key : Buffer entry.keyLength, entry.expected = hex key.toList

/-- The derivation of the library, as one under test. -/
def underTest (prf : BlockPrf) : Derivation Journaled KdfError := fun _ request buffer => do
  let outcome ← derive prf request buffer
  return outcome.status.map fun _ => outcome.buffer

/-- A trial with a key passes if the expected text is the one of the key. -/
theorem Trial.passes_of_map_eq_ok {ε : Type} {entry : KnownAnswer}
    {outcome : Except ε (Buffer entry.keyLength)} {key : Bytes}
    (h : outcome.map Vector.toList = .ok key) :
    Passes ⟨entry, outcome⟩ ↔ entry.expected = hex key := by
  cases outcome with
  | error e => exact absurd h nofun
  | ok key' =>
    obtain rfl : key'.toList = key := Except.ok.inj h
    rw [passes_of_ok, eq_comm]

section UnderTest

variable {prf : BlockPrf} {table : List KnownAnswer}

/-- **Within the limits, the derivation of the library answers with the key of RFC 8018.** -/
theorem map_underTest (hstreams : prf.Streams) {request : Request} {n : Nat}
    (hlimits : limitFault? prf.width request.rounds n = none) (buffer : Buffer n)
    (journal : Journal) :
    (underTest prf n request buffer journal).1.map Vector.toList =
      .ok (prf.derivedKey request n) := by
  have hcount := count_lt_of_limitFault?_eq_none hlimits
  calc (underTest prf n request buffer journal).1.map Vector.toList
    _ = (derive prf request buffer journal).1.answer := Outcome.map_toList_status _
    _ = prf.answer request n := answer_derive buffer journal
    _ = .ok (prf.derivedKey request n) := by
        rw [BlockPrf.answer_of_none hlimits, hstreams.key_eq request hcount]

/-- All trials pass if all texts are those of the keys, whatever happens in between. -/
theorem forall_passes_underTest_iff (hstreams : prf.Streams)
    (hlimits : ∀ entry ∈ table, limitFault? prf.width entry.rounds entry.keyLength = none)
    (journal : Journal) :
    (∀ trial ∈ (tryAll (underTest prf) table journal).1, trial.Passes) ↔
      ∀ entry ∈ table, entry.expected = hex (prf.derivedKey entry.request entry.keyLength) := by
  induction table generalizing journal with
  | nil => exact iff_of_true nofun nofun
  | cons entry rest ih =>
    obtain ⟨hfirst, hrest⟩ := List.forall_mem_cons.mp hlimits
    -- The rest of the table is tried from the journal that the first entry leaves behind.
    let tried := underTest prf entry.keyLength entry.request (Buffer.zeros entry.keyLength) journal
    change (∀ trial ∈ ⟨entry, tried.1⟩ :: (tryAll (underTest prf) rest tried.2).1, trial.Passes) ↔ _
    rw [List.forall_mem_cons, List.forall_mem_cons, ih hrest,
      Trial.passes_of_map_eq_ok (map_underTest hstreams hfirst _ journal)]

end UnderTest

/-! ### What a run over a well-formed table says -/

namespace WellFormed

variable {width : Nat} {table : List KnownAnswer}

/-- **A number tells which entry has failed**: no two failing entries of a run have the same. -/
theorem nodup_id_failing {σ ε : Type} (h : WellFormed width table)
    (derivation : Derivation (StateM σ) ε) (includeSlow : Bool) (state : σ) :
    ((failing (tryAll derivation (selected includeSlow table) state).1).map
      fun trial => trial.entry.id).Nodup := by
  have hselected : ((selected includeSlow table).map KnownAnswer.id).Nodup :=
    h.nodup_id.sublist (List.filter_sublist.map _)
  rw [← map_entry_tryAll derivation (selected includeSlow table) state, List.map_map] at hselected
  exact hselected.sublist (List.filter_sublist.map _)

/-- **What a run over a well-formed table says** about a pseudorandom function: it ends well exactly
if every text that is tried is the one of the key that RFC 8018 defines. -/
theorem run_underTest_eq_ok_iff {prf : BlockPrf} (h : WellFormed prf.width table)
    (hstreams : prf.Streams) (includeSlow : Bool) (journal : Journal) :
    (run (underTest prf) includeSlow table journal).1 = .ok () ↔
      ∀ entry ∈ selected includeSlow table,
        entry.expected = hex (prf.derivedKey entry.request entry.keyLength) := by
  have hlimits : ∀ entry ∈ selected includeSlow table,
      limitFault? prf.width entry.rounds entry.keyLength = none := fun entry hentry =>
    h.limitFault?_eq_none entry (List.mem_filter.mp hentry).1
  rw [run_eq, ← forall_passes_underTest_iff hstreams hlimits journal]
  exact conclude_eq_ok_iff

/-- A table is well-formed if its numbers and its requests are in order, and its texts have as many
digits as they should, all of them lower-case. -/
theorem of_digits (hid : (table.map KnownAnswer.id).Nodup)
    (hlimits : ∀ entry ∈ table, limitFault? width entry.rounds entry.keyLength = none)
    (hdigits : ∀ entry ∈ table, ∃ digits, entry.expected = String.ofList digits ∧
      digits.length = 2 * entry.keyLength ∧ digits ⊆ lowerHexDigits) :
    WellFormed width table where
  nodup_id := hid
  limitFault?_eq_none := hlimits
  exists_key entry hentry := by
    obtain ⟨digits, hexpected, hdigits⟩ := hdigits entry hentry
    obtain ⟨bytes, hlength, htext⟩ := exists_hex_eq_iff.mpr hdigits
    refine ⟨.ofBytes bytes hlength, ?_⟩
    rw [Buffer.toList_ofBytes, htext, hexpected]

end WellFormed

/-! ### The three tables -/

theorem wellFormed_hmacSha1Answers : WellFormed hmacSha1.width hmacSha1Answers := by
  refine .of_digits (by decide) (by decide) fun entry hentry => ?_
  simp only [hmacSha1Answers, List.mem_cons, List.not_mem_nil, or_false] at hentry
  rcases hentry with rfl | rfl | rfl | rfl | rfl | rfl <;> exact ⟨_, rfl, by decide⟩

theorem wellFormed_hmacSha256Answers : WellFormed hmacSha256.width hmacSha256Answers := by
  refine .of_digits (by decide) (by decide) fun entry hentry => ?_
  simp only [hmacSha256Answers, List.mem_cons, List.not_mem_nil, or_false] at hentry
  -- The texts of the longer keys are put together from two.
  rcases hentry with rfl | rfl | rfl | rfl | rfl | rfl | rfl
  · exact ⟨_, rfl, by decide⟩
  · exact ⟨_, rfl, by decide⟩
  · exact ⟨_, rfl, by decide⟩
  · exact ⟨_, String.ofList_append.symm, by decide +kernel⟩
  · exact ⟨_, rfl, by decide⟩
  · exact ⟨_, String.ofList_append.symm, by decide +kernel⟩
  · exact ⟨_, String.ofList_append.symm, by decide +kernel⟩

theorem wellFormed_hmacSha512Answers : WellFormed hmacSha512.width hmacSha512Answers := by
  refine .of_digits (by decide) (by decide) fun entry hentry => ?_
  simp only [hmacSha512Answers, List.mem_cons, List.not_mem_nil, or_false] at hentry
  rcases hentry with rfl | rfl | rfl | rfl <;>
    exact ⟨_, String.ofList_append.symm, by decide +kernel⟩

end KnownAnswer

end KeyDerivation
