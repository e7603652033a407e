import KeyDerivation.Derivation.Block

/-!
# Known answers, and a run over a table of them

A known answer is a request with the key that must come out of it, given as
hexadecimal text. `KeyDerivation.KnownAnswer.run` puts a derivation through a table of
known answers. It does not stop at the first failure: every failing entry is
reported, in the order of the table.

The derivation under test is any function of a request and a buffer that answers
with a buffer or an error, in any monad. It is called once for every entry that is
not skipped, each time with a new buffer of zeros. The comparison is between texts:
the expected one is taken as it stands, so one that is not lower-case hexadecimal
of the right length matches no key.
-/

namespace KeyDerivation

/-- **A known answer.** -/
structure KnownAnswer where
  /-- The number of the entry, unique within its table. -/
  id : Nat
  /-- What the entry is about. -/
  comment : String
  password : Bytes
  salt : Bytes
  rounds : UInt32
  keyLength : Nat
  /-- The derived key in hexadecimal. -/
  expected : String
  /-- Whether the entry takes too long for an everyday run. -/
  slow : Bool

namespace KnownAnswer

/-- The request of an entry. -/
def request (answer : KnownAnswer) : Request := ⟨answer.password, answer.salt, answer.rounds⟩

/-- **What is wrong with an entry**: its key came out as another text, or not at all. -/
inductive Failure (ε : Type)
  | mismatch (answer : KnownAnswer) (obtained : String)
  | error (answer : KnownAnswer) (e : ε)

/-- The report of a failure. `describe` is the text of an error. -/
def Failure.message {ε : Type} (describe : ε → String) : Failure ε → String
  | mismatch answer obtained =>
    s!"id {answer.id} ({answer.comment}): output mismatch\n" ++
      s!"  expected: {answer.expected}\n  got:      {obtained}"
  | error answer e =>
    s!"id {answer.id} ({answer.comment}): expected valid but got error: " ++ describe e

/-! ### The run -/

/-- A derivation under test. -/
abbrev Derivation (m : Type → Type) (ε : Type) :=
  (n : Nat) → Request → Buffer n → m (Except ε (Buffer n))

variable {m : Type → Type} [Monad m] {ε : Type}

/-- **Trying one entry.** -/
def check (derivation : Derivation m ε) (answer : KnownAnswer) : m (Option (Failure ε)) := do
  match ← derivation answer.keyLength answer.request (Buffer.zeros answer.keyLength) with
  | .ok key =>
    let obtained := hex key.toList
    return if obtained = answer.expected then none else some (.mismatch answer obtained)
  | .error e => return some (.error answer e)

/-- The entries a run tries: all of them, or those that are not slow. -/
def selected (includeSlow : Bool) (table : List KnownAnswer) : List KnownAnswer :=
  table.filter fun answer => includeSlow || !answer.slow

/-- **A run over a table**: fails with all failures, in the order of the table. -/
def run (derivation : Derivation m ε) (includeSlow : Bool) (table : List KnownAnswer) :
    m (Except (List (Failure ε)) Unit) := do
  let results ← (selected includeSlow table).mapM (check derivation)
  match results.filterMap fun failure => failure with
  | [] => return .ok ()
  | failures => return .error failures

end KnownAnswer

end KeyDerivation
