import KeyDerivation.Error
import KeyDerivation.Prf

/-!
# The journal of a computation

Apart from the bytes it returns, a derivation can be observed in three ways: the
calls it makes to its pseudorandom function, the times it looks at its cancellation
flag, and the events it logs. `KeyDerivation.Journal` holds all three in the order in
which they happened, and a computation that adds to it is a
`KeyDerivation.Journaled` one. There are three elementary steps, and everything else
is made of them:

* `KeyDerivation.invoke` calls a pseudorandom function;
* `KeyDerivation.poll` looks at the cancellation flag;
* `KeyDerivation.emit` logs an event.

A cancellation flag may be raised by anybody at any time, so it is modelled as
generally as it can be: its answer is a function of everything that has happened so
far (`KeyDerivation.CancelFlag`). A flag may even be lowered again.

An event has no place for a key, a salt or an output byte: numbers are all it can
carry.
-/

namespace KeyDerivation

/-! ### Events -/

/-- How important an event is. -/
inductive Level
  | trace
  | debug
  deriving DecidableEq

/-- The name of a level. -/
def Level.name : Level → String
  | trace => "trace"
  | debug => "debug"

/-- **A log event.** -/
inductive Event
  /-- A request was turned down. -/
  | rejected (fault : LimitFault)
  /-- A derivation of `blocks` blocks begins. -/
  | started (rounds keyLength width blocks : Nat)
  /-- A derivation was cancelled. -/
  | cancelled
  /-- A derived key was not the expected one. -/
  | mismatched
  deriving DecidableEq

namespace Event

/-- Progress is traced, everything that ends badly is for debugging. -/
def level : Event → Level
  | started .. => .trace
  | _ => .debug

/-- The text of an event. -/
def message : Event → String
  | rejected .zeroRounds => "pbkdf2 rejected: zero iteration count"
  | rejected .emptyKey => "pbkdf2 rejected: empty output"
  | rejected (.keyTooLong ..) => "pbkdf2 rejected: output too long"
  | started .. => "pbkdf2 derive"
  | cancelled => "pbkdf2 cancelled"
  | mismatched => "pbkdf2 verification failed"

/-- The numbers an event carries, with their names. -/
def fields : Event → List (String × Nat)
  | rejected (.keyTooLong requested max) => [("requested", requested), ("max", max)]
  | started rounds keyLength width blocks =>
    [("rounds", rounds), ("dk_len", keyLength), ("h_len", width), ("blocks", blocks)]
  | _ => []

end Event

/-! ### The journal -/

/-- A call to a pseudorandom function: its key and its whole message. -/
structure Call where
  key : Bytes
  message : Bytes
  deriving DecidableEq

/-- A look at the cancellation flag: how many calls were finished by then, and what
the flag answered. -/
structure Poll where
  callsBefore : Nat
  answer : Bool
  deriving DecidableEq

/-- **What has happened**: calls, polls and events, each kind oldest first. -/
structure Journal where
  calls : Array Call
  polls : Array Poll
  events : Array Event
  deriving DecidableEq

/-- The journal of nothing. -/
def Journal.empty : Journal := ⟨#[], #[], #[]⟩

/-- A computation that adds to the journal. -/
abbrev Journaled := StateM Journal

/-! ### Cancellation flags -/

/-- **A cancellation flag**: what it answers when it is looked at, given everything
that has happened before. -/
abbrev CancelFlag := Journal → Bool

namespace CancelFlag

/-- The flag that keeps one value. -/
def constant (raised : Bool) : CancelFlag := fun _ => raised

/-- The flag that is never raised. -/
def never : CancelFlag := constant false

/-- **The flag that is raised for good when the `k`-th call of the journal finishes.**
Calls are counted from one: it takes a call to raise the flag, and for `k = 0` there is
none that does. -/
def afterCalls (k : Nat) : CancelFlag :=
  fun journal => decide (0 < k ∧ k ≤ journal.calls.size)

end CancelFlag

/-! ### The elementary steps -/

/-- Notes a finished call. -/
def record (call : Call) : Journaled Unit := fun journal =>
  ((), { journal with calls := journal.calls.push call })

/-- **A call** to a pseudorandom function, with the message in the given pieces. -/
def invoke (prf : Prf) (key : Bytes) (pieces : List Bytes) : Journaled (Buffer prf.width) := do
  record ⟨key, pieces.flatten⟩
  return prf.value key pieces

/-- **A look** at the cancellation flag. -/
def poll (flag : CancelFlag) : Journaled Bool := fun journal =>
  let answer := flag journal
  (answer, { journal with polls := journal.polls.push ⟨journal.calls.size, answer⟩ })

/-- **Logging** an event. -/
def emit (event : Event) : Journaled Unit := fun journal =>
  ((), { journal with events := journal.events.push event })

end KeyDerivation
