import KeyDerivation.Derivation.Derive
import KeyDerivation.Fnv

/-!
# Watching a derivation call its pseudorandom function

The calls in the journal are a record that can be looked at between computations.
This file fixes a session over that record with the checksum as the pseudorandom
function: a sequence of actions, each of which may finish calls.

What makes the record exact is where a call enters it. A context that is dropped
unfinished leaves no trace, and neither does one that is finished into a buffer too
short for its output: the buffer is checked first
(`KeyDerivation.Recorder.finish?`).
-/

namespace KeyDerivation

namespace Recorder

/-- Forgets all calls recorded so far. -/
def reset : Journaled Unit := fun journal => ((), { journal with calls := #[] })

/-- **Finishing a computation** into a buffer: if the buffer can hold the output, the
call is recorded. -/
def finish? {n : Nat} (context : ChecksumContext) (out : Buffer n) :
    Journaled (Option (Buffer n)) := do
  match checksumPrf.toPrf.finish? context out with
  | none => return none
  | some written =>
    record ⟨context.key, context.message⟩
    return some written

/-- **An action** of a session. -/
inductive Action
  /-- Forget all recorded calls. -/
  | reset
  /-- Call the function with a message in pieces and write its output to a buffer. -/
  | compute (key : Bytes) (pieces : List Bytes) (n : Nat) (out : Buffer n)
  /-- Start a computation, absorb pieces, and drop it. -/
  | abandon (key : Bytes) (pieces : List Bytes)
  /-- Derive a key into a buffer. -/
  | derive (flag : CancelFlag) (request : Request) (n : Nat) (buffer : Buffer n)
  /-- Verify a key. -/
  | verify (expected : Bytes) (request : Request)

/-- **What an action answers.** -/
inductive Reply
  | done
  /-- The buffer was too short for the output. -/
  | refused
  /-- The buffer after the output was written to it. -/
  | written (buffer : Bytes)
  /-- The status of a derivation, and the buffer after it. -/
  | derived (status : Except KdfError Unit) (buffer : Bytes)
  /-- The status of a verification. -/
  | verified (status : Except KdfError Unit)

/-- **One action of a session**, with all it adds to the journal. -/
def perform : Action → Journaled Reply
  | .reset => do
    reset
    return .done
  | .compute key pieces _ out => do
    match ← finish? (checksumPrf.context key pieces) out with
    | some written => return .written written.toList
    | none => return .refused
  | .abandon key pieces =>
    let _unfinished := checksumPrf.context key pieces
    return .done
  | .derive flag request _ buffer => do
    let outcome ← deriveCancellable checksumPrf flag request buffer
    return .derived outcome.status outcome.buffer.toList
  | .verify expected request => do
    return .verified (← KeyDerivation.verify checksumPrf expected request)

/-- What is seen of a session after one of its actions: the answer, and the record. -/
structure Row where
  reply : Reply
  calls : List Call

/-- **A session**: actions one after the other, with a look at the record after each. -/
def session : List Action → Journaled (List Row)
  | [] => return []
  | action :: rest => do
    let reply ← perform action
    let row : Row := ⟨reply, (← get).calls.toList⟩
    return row :: (← session rest)

end Recorder

end KeyDerivation
