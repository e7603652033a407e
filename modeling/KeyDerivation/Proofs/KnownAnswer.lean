import KeyDerivation.KnownAnswer.Basic
import KeyDerivation.Proofs.Hex

/-!
# What a run over known answers reports

All that is known of the derivations rests on tables of known answers, so a run over a table has to
be beyond doubt: an entry that is left out, a buffer that still holds the key of the entry before, or
a comparison that is not exact would let a wrong derivation pass.

`KeyDerivation.KnownAnswer.Trial` is an entry with what came out of its derivation, and
`KeyDerivation.KnownAnswer.tryAll` makes one of every entry, in order. The derivation may be any
function, also one that remembers what it was asked before. What a run answers follows from the
trials (`KeyDerivation.KnownAnswer.run_eq`): the ones that do not pass are reported, each for itself,
and nothing else is. What a run asks is what is noted on the way
(`KeyDerivation.KnownAnswer.run_watched`): one call for every entry that is not skipped, with a
buffer of zeros.
-/

namespace KeyDerivation

namespace KnownAnswer

/-! ### Trials -/

/-- **An entry, with what came out of its derivation.** -/
structure Trial (ε : Type) where
  entry : KnownAnswer
  outcome : Except ε (Buffer entry.keyLength)

namespace Trial

variable {ε : Type} (trial : Trial ε)

/-- **A trial passes** if a key came out and the expected text is its hexadecimal text. -/
def Passes : Prop := ∃ key, trial.outcome = .ok key ∧ trial.entry.expected = hex key.toList

/-- What is wrong with an entry whose trial does not pass. -/
def failure : Failure ε :=
  match trial.outcome with
  | .ok key => .mismatch trial.entry (hex key.toList)
  | .error e => .error trial.entry e

/-- **The report of a trial that does not pass**: the number of the entry and what it is about, and
then either both texts or the error. -/
def report (describe : ε → String) : String :=
  let id := trial.entry.id
  let comment := trial.entry.comment
  let expected := trial.entry.expected
  match trial.outcome with
  | .ok key =>
    s!"id {id} ({comment}): output mismatch\n" ++
      s!"  expected: {expected}\n  got:      {hex key.toList}"
  | .error e => s!"id {id} ({comment}): expected valid but got error: " ++ describe e

variable {trial}

theorem passes_of_ok {entry : KnownAnswer} {key : Buffer entry.keyLength} :
    Passes (⟨entry, .ok key⟩ : Trial ε) ↔ hex key.toList = entry.expected := by
  constructor
  · rintro ⟨key', hkey, hexpected⟩
    rw [hexpected, ← Except.ok.inj hkey]
  · intro hexpected
    exact ⟨key, rfl, hexpected.symm⟩

theorem not_passes_of_error {entry : KnownAnswer} {e : ε} :
    ¬Passes (⟨entry, .error e⟩ : Trial ε) := by
  rintro ⟨key, hkey, -⟩
  exact absurd hkey nofun

instance : DecidablePred (Passes (ε := ε))
  | ⟨_, .ok _⟩ => decidable_of_iff _ passes_of_ok.symm
  | ⟨_, .error _⟩ => isFalse not_passes_of_error

theorem message_failure (describe : ε → String) (trial : Trial ε) :
    trial.failure.message describe = trial.report describe := by
  rcases trial with ⟨entry, e | key⟩
  · rfl
  · rfl

end Trial

/-! ### A run, whatever the derivation does besides -/

section Run

variable {m : Type → Type} [Monad m] {ε : Type} (derivation : Derivation m ε)

/-- **Trying the entries of a table** one after the other, each with a new buffer of zeros. -/
def tryAll : List KnownAnswer → m (List (Trial ε))
  | [] => return []
  | entry :: rest => do
    let outcome ← derivation entry.keyLength entry.request (Buffer.zeros entry.keyLength)
    return ⟨entry, outcome⟩ :: (← tryAll rest)

/-- What a run keeps of a trial. -/
def Trial.failure? (trial : Trial ε) : Option (Failure ε) :=
  if trial.Passes then none else some trial.failure

/-- The trials that do not pass, in order. -/
def failing (tried : List (Trial ε)) : List (Trial ε) := tried.filter fun trial => ¬trial.Passes

/-- **What is concluded from trials**: that all of them have passed, or the failures of those that
have not. -/
def conclude (tried : List (Trial ε)) : Except (List (Failure ε)) Unit :=
  if failing tried = [] then .ok () else .error ((failing tried).map Trial.failure)

theorem failing_eq_nil_iff {tried : List (Trial ε)} :
    failing tried = [] ↔ ∀ trial ∈ tried, trial.Passes := by
  rw [failing, List.filter_eq_nil_iff]
  refine forall₂_congr fun trial _ => ?_
  rw [decide_eq_true_iff, Decidable.not_not]

/-- **The conclusion is good** exactly if all trials have passed. -/
theorem conclude_eq_ok_iff {tried : List (Trial ε)} :
    conclude tried = .ok () ↔ ∀ trial ∈ tried, trial.Passes := by
  rw [conclude, ← failing_eq_nil_iff]
  by_cases hnone : failing tried = []
  · exact iff_of_true (if_pos hnone) hnone
  · refine iff_of_false (fun h => ?_) hnone
    rw [if_neg hnone] at h
    exact absurd h nofun

/-- **The conclusion in words**: the reports of the trials that do not pass. -/
theorem mapError_conclude (describe : ε → String) (tried : List (Trial ε)) :
    (conclude tried).mapError (List.map (Failure.message describe)) =
      if failing tried = [] then .ok ()
      else .error ((failing tried).map fun trial => trial.report describe) := by
  rw [conclude]
  by_cases hnone : failing tried = []
  · rw [if_pos hnone, if_pos hnone]
    rfl
  · rw [if_neg hnone, if_neg hnone]
    change Except.error _ = Except.error _
    rw [List.map_map]
    exact congrArg Except.error (List.map_congr_left fun trial _ => trial.message_failure describe)

/-- The failures that are kept are those of the failing trials. -/
theorem filterMap_failure? (tried : List (Trial ε)) :
    tried.filterMap Trial.failure? = (failing tried).map Trial.failure := by
  induction tried with
  | nil => rfl
  | cons trial rest ih =>
    by_cases hpasses : trial.Passes
    · have hkept : trial.failure? = none := if_pos hpasses
      have hfailing : failing (trial :: rest) = failing rest :=
        List.filter_cons_of_neg (by simpa using hpasses)
      rw [List.filterMap_cons_none hkept, ih, hfailing]
    · have hkept : trial.failure? = some trial.failure := if_neg hpasses
      have hfailing : failing (trial :: rest) = trial :: failing rest :=
        List.filter_cons_of_pos (by simpa using hpasses)
      rw [List.filterMap_cons_some hkept, ih, hfailing, List.map_cons]

variable [LawfulMonad m]

/-- Trying an entry keeps a failure exactly if the trial does not pass. -/
theorem check_eq (entry : KnownAnswer) :
    check derivation entry = (fun outcome => Trial.failure? ⟨entry, outcome⟩) <$>
      derivation entry.keyLength entry.request (Buffer.zeros entry.keyLength) := by
  rw [check, map_eq_pure_bind]
  congr 1
  funext outcome
  cases outcome with
  | error e =>
    simp only [Trial.failure?, if_neg Trial.not_passes_of_error]
    rfl
  | ok key =>
    by_cases htext : hex key.toList = entry.expected
    · simp only [Trial.failure?, if_pos htext, if_pos (Trial.passes_of_ok.mpr htext)]
    · simp only [Trial.failure?, if_neg htext, if_neg (mt Trial.passes_of_ok.mp htext)]
      rfl

theorem mapM_check (table : List KnownAnswer) :
    table.mapM (check derivation) =
      (fun tried => tried.map Trial.failure?) <$> tryAll derivation table := by
  induction table with
  | nil => simp [tryAll]
  | cons entry rest ih =>
    rw [List.mapM_cons, check_eq, ih, tryAll]
    simp

/-- **A run is a conclusion from trials**, and does nothing besides making them. -/
theorem run_eq (includeSlow : Bool) (table : List KnownAnswer) :
    run derivation includeSlow table =
      conclude <$> tryAll derivation (selected includeSlow table) := by
  rw [run, mapM_check, map_eq_pure_bind, map_eq_pure_bind, bind_assoc]
  congr 1
  funext tried
  have hfailures : (tried.map Trial.failure?).filterMap (fun failure => failure) =
      (failing tried).map Trial.failure := by
    rw [List.filterMap_map]
    exact filterMap_failure? tried
  rw [pure_bind, hfailures, conclude]
  cases failing tried with
  | nil => rfl
  | cons trial rest => rfl

/-! ### The calls of a run -/

/-- **A call of a derivation**: how many bytes it is asked for, the request, and what is in the
buffer that it is handed. -/
structure Invocation where
  length : Nat
  request : Request
  buffer : Bytes

/-- The call that an entry is tried with. -/
def invocation (entry : KnownAnswer) : Invocation :=
  ⟨entry.keyLength, entry.request, List.replicate entry.keyLength 0⟩

/-- **A derivation whose calls are noted**, behind the ones noted before. -/
def watched : Derivation (StateT (List Invocation) m) ε := fun n request buffer noted => do
  let outcome ← derivation n request buffer
  return (outcome, noted ++ [⟨n, request, buffer.toList⟩])

theorem run_watched_derivation (n : Nat) (request : Request) (buffer : Buffer n)
    (noted : List Invocation) :
    (watched derivation n request buffer).run noted =
      (fun outcome => (outcome, noted ++ [⟨n, request, buffer.toList⟩])) <$>
        derivation n request buffer := by
  rw [map_eq_pure_bind]
  rfl

/-- Every entry is tried with one call, in order. -/
theorem run_tryAll_watched (table : List KnownAnswer) (noted : List Invocation) :
    (tryAll (watched derivation) table).run noted =
      (fun tried => (tried, noted ++ table.map invocation)) <$> tryAll derivation table := by
  induction table generalizing noted with
  | nil => simp [tryAll]
  | cons entry rest ih =>
    rw [tryAll, StateT.run_bind, run_watched_derivation, bind_map_left, tryAll, map_bind]
    congr 1
    funext outcome
    simp [ih, invocation, Buffer.zeros]

/-- **A run calls the derivation once for every entry that it does not skip**, and is not changed by
being watched. -/
theorem run_watched (includeSlow : Bool) (table : List KnownAnswer) (noted : List Invocation) :
    (run (watched derivation) includeSlow table).run noted =
      (fun answer => (answer, noted ++ (selected includeSlow table).map invocation)) <$>
        run derivation includeSlow table := by
  rw [run_eq, run_eq, StateT.run_map, run_tryAll_watched, Functor.map_map, Functor.map_map]

end Run

/-! ### Passing -/

section Passing

variable {ε : Type} {trial trial' : Trial ε}

/-- A text that passes is lower-case, with two digits for every byte of the key. -/
theorem Trial.Passes.expected (h : trial.Passes) :
    trial.entry.expected.length = 2 * trial.entry.keyLength ∧
      ∀ c ∈ trial.entry.expected.toList, c ∈ lowerHexDigits := by
  obtain ⟨key, -, htext⟩ := h
  rw [htext]
  refine ⟨?_, fun c hc => mem_lowerHexDigits_of_mem_hex hc⟩
  rw [length_hex, Vector.length_toList]

/-- **One text does not pass two keys.** -/
theorem Trial.Passes.outcome_eq (h : trial.Passes) (h' : trial'.Passes)
    (hsame : trial.entry.expected = trial'.entry.expected) :
    trial.outcome.map Vector.toList = trial'.outcome.map Vector.toList := by
  obtain ⟨key, hkey, htext⟩ := h
  obtain ⟨key', hkey', htext'⟩ := h'
  have hbytes : key.toList = key'.toList := by
    rw [← hex_inj, ← htext, ← htext', hsame]
  rw [hkey, hkey']
  exact congrArg Except.ok hbytes

end Passing

section State

variable {σ ε : Type} (derivation : Derivation (StateM σ) ε)

/-- There is one trial for every entry, in order. -/
theorem map_entry_tryAll (table : List KnownAnswer) (state : σ) :
    (tryAll derivation table state).1.map Trial.entry = table := by
  induction table generalizing state with
  | nil => rfl
  | cons entry rest ih => exact congrArg (List.cons entry) (ih _)

/-- **A run reports every entry that fails, and nothing else.**

The derivation is any function of a length, a request and a buffer that answers with a buffer of
that length or an error, and it may remember what it was asked before in a state of any kind. It is
called once for every entry of the table, or for every one that is not slow, in order, each time
with the password, the salt and the rounds of the entry and with a new buffer of as many zeros as
the key has bytes.

A run ends well exactly if a key came out of every one of these calls, and the expected text is the
hexadecimal text of that key. So a text that passes is lower-case, it has two digits for every byte
of the key, and it does not pass any other key. A run that does not end well reports every entry
that has failed, once and in order: with both texts if a key came out, and with the error if none
did. Whether an entry is reported has nothing to do with the others. -/
theorem run_reports_failing_entries_only (includeSlow : Bool) (table : List KnownAnswer)
    (state : σ) :
    let entries := table.filter fun entry => includeSlow || !entry.slow
    let tried := (tryAll derivation entries state).1
    let run := KnownAnswer.run derivation includeSlow table state
    (∀ noted : List Invocation,
      (KnownAnswer.run (watched derivation) includeSlow table).run noted state =
        ((run.1, noted ++ entries.map fun entry =>
          ⟨entry.keyLength, ⟨entry.password, entry.salt, entry.rounds⟩,
            List.replicate entry.keyLength 0⟩), run.2)) ∧
    tried.map Trial.entry = entries ∧
    (run.1 = .ok () ↔ ∀ trial ∈ tried,
      ∃ key, trial.outcome = .ok key ∧ trial.entry.expected = hex key.toList) ∧
    (∀ describe : ε → String,
      let failing := tried.filter fun trial => ¬trial.Passes
      run.1.mapError (List.map (Failure.message describe)) =
        if failing = [] then .ok () else .error (failing.map fun trial => trial.report describe)) ∧
    (run.1 = .ok () → ∀ entry ∈ entries, entry.expected.length = 2 * entry.keyLength ∧
      ∀ c ∈ entry.expected.toList, c ∈ "0123456789abcdef".toList) ∧
    ∀ trial trial' : Trial ε, trial.Passes → trial'.Passes →
      trial.entry.expected = trial'.entry.expected →
        trial.outcome.map Vector.toList = trial'.outcome.map Vector.toList := by
  intro entries tried run
  have hrun : run = (conclude tried, (tryAll derivation entries state).2) := by
    change KnownAnswer.run derivation includeSlow table state = _
    rw [run_eq]
    rfl
  have hentries : tried.map Trial.entry = entries := map_entry_tryAll derivation entries state
  have hpasses : run.1 = .ok () ↔ ∀ trial ∈ tried, trial.Passes := by
    rw [hrun]
    exact conclude_eq_ok_iff
  refine ⟨fun noted => ?_, hentries, hpasses, fun describe => ?_, fun hok entry hentry => ?_, ?_⟩
  · rw [run_watched]
    rfl
  · rw [hrun]
    exact mapError_conclude describe tried
  · rw [← hentries] at hentry
    obtain ⟨trial, htrial, rfl⟩ := List.mem_map.mp hentry
    exact (hpasses.mp hok trial htrial).expected
  · intro trial trial' h h' hsame
    exact h.outcome_eq h' hsame

/-- A derivation that remembers how often it was called, on a table of one entry that passes, and
two trials of different entries whose texts are the same. -/
theorem run_reports_failing_entries_only_passing :
    let derivation : Derivation (StateM Nat) String := fun n _ _ asked =>
      (if asked = 1 then .error "boom" else .ok (Vector.replicate n 0xab), asked + 1)
    let entry : KnownAnswer := ⟨1, "two bytes", [0x70], [0x73], 1, 2, "abab", false⟩
    let other : KnownAnswer := ⟨2, "again", [], [], 7, 2, "abab", true⟩
    let trial : Trial String := ⟨entry, .ok (Vector.replicate 2 0xab)⟩
    let trial' : Trial String := ⟨other, .ok (Vector.replicate 2 0xab)⟩
    ((run derivation false [entry, other] 0).1 = .ok () ∧ entry ∈ [entry] ∧
      trial.Passes ∧ trial'.Passes ∧ trial.entry.expected = trial'.entry.expected) ∧
    ((run (watched derivation) false [entry, other]).run [] 0).1.2 =
      [⟨2, ⟨[0x70], [0x73], 1⟩, [0, 0]⟩] ∧
    (entry.expected.length = 2 * 2 ∧
      ∀ c ∈ entry.expected.toList, c ∈ "0123456789abcdef".toList) ∧
    trial.outcome.map Vector.toList = trial'.outcome.map Vector.toList := by
  intro derivation entry other trial trial'
  obtain ⟨hcalls, -, hok, -, htext, hkeys⟩ :=
    run_reports_failing_entries_only derivation false [entry, other] 0
  have hpasses : trial.Passes := ⟨_, rfl, rfl⟩
  have hpasses' : trial'.Passes := ⟨_, rfl, rfl⟩
  have hrun : (run derivation false [entry, other] 0).1 = .ok () := by
    refine hok.mpr fun tried htried => ?_
    rw [List.mem_singleton.mp htried]
    exact hpasses
  exact ⟨⟨hrun, List.mem_cons_self, hpasses, hpasses', rfl⟩, congrArg (·.1.2) (hcalls []),
    htext hrun entry List.mem_cons_self, hkeys trial trial' hpasses hpasses' rfl⟩

/-- The slow entry is skipped, the call that fails is the second one, and a text in upper case is
the text of no key. -/
example :
    let derivation : Derivation (StateM Nat) String := fun n _ _ asked =>
      (if asked = 1 then .error "boom" else .ok (Vector.replicate n 0xab), asked + 1)
    let entry (id : Nat) (expected : String) (slow : Bool) : KnownAnswer :=
      ⟨id, "c = 1", [0x70], [0x73], 1, 1, expected, slow⟩
    (run derivation false
        [entry 1 "ab" false, entry 2 "00" true, entry 3 "ab" false, entry 4 "AB" false] 0).1.mapError
          (List.map (Failure.message fun e => e)) =
      .error ["id 3 (c = 1): expected valid but got error: boom",
        "id 4 (c = 1): output mismatch\n  expected: AB\n  got:      ab"] := by
  cbv

end State

end KnownAnswer

end KeyDerivation
