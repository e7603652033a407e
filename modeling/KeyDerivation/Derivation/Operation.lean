import KeyDerivation.Derivation.Parameters

/-!
# The operations of the library

A key can be derived into a buffer of the caller's or into a new one, with a flag or without,
from a request or from parameters that were checked before. A request can also be checked
only, and a key verified. `KeyDerivation.Operation` is any of these together with all that is
handed to it, so that what holds of every one of them can be said once.

Passwords, salts, expected keys and what is in a buffer are one side of an operation. The
other side is its `KeyDerivation.Operation.Profile`: the three numbers that the limits are
about, and what there is to know of the buffer and of the errors that it can end with. In a
verification the length is that of the expected key, and wherever the caller hands over a
buffer, it is the length of the buffer.
-/

namespace KeyDerivation

/-- **An operation** with everything that is handed to it. -/
inductive Operation
  /-- Check a request. -/
  | check (width : Nat) (rounds : UInt32) (n : Nat)
  /-- Check a round count and a key length, to be kept as parameters. -/
  | makeParameters (width : Nat) (rounds : UInt32) (n : Nat)
  /-- Derive into a buffer. -/
  | derive (prf : BlockPrf) (request : Request) (n : Nat) (buffer : Buffer n)
  /-- Derive into a buffer, unless a flag is raised. -/
  | deriveCancellable (prf : BlockPrf) (flag : CancelFlag) (request : Request) (n : Nat)
      (buffer : Buffer n)
  /-- Derive into a buffer with HMAC-SHA-1. -/
  | deriveHmacSha1 (request : Request) (n : Nat) (buffer : Buffer n)
  /-- Derive into a buffer with HMAC-SHA-256. -/
  | deriveHmacSha256 (request : Request) (n : Nat) (buffer : Buffer n)
  /-- Derive into a buffer with HMAC-SHA-512. -/
  | deriveHmacSha512 (request : Request) (n : Nat) (buffer : Buffer n)
  /-- Derive into a new buffer. -/
  | deriveFresh (prf : BlockPrf) (request : Request) (n : Nat)
  /-- Derive into a new buffer that is made only if the request is within the limits. -/
  | deriveKey (prf : BlockPrf) (request : Request) (n : Nat)
  /-- Verify a key. -/
  | verify (prf : BlockPrf) (expected : Bytes) (request : Request)
  /-- Derive into a buffer as parameters say. -/
  | deriveAs (parameters : Parameters) (prf : BlockPrf) (password salt : Bytes) (n : Nat)
      (buffer : Buffer n)
  /-- Derive into a new buffer as parameters say. -/
  | deriveKeyAs (parameters : Parameters) (prf : BlockPrf) (password salt : Bytes)

namespace Operation

/-! ### Profiles -/

/-- **What an operation is about**, apart from its secrets. -/
structure Profile where
  /-- The width of the pseudorandom function. -/
  width : Nat
  /-- The number of rounds asked for. -/
  rounds : UInt32
  /-- The length of the key asked for. -/
  keyLength : Nat
  /-- Whether a key is derived once the request has passed the check. -/
  derives : Bool := true
  /-- The buffer that the caller hands over. -/
  buffer : Option Bytes := none
  /-- The error for a buffer that is not as long as the parameters say. -/
  lengthError? : Option KdfError := none
  /-- The error that may come up although nothing is wrong with the request. -/
  ownError? : Option KdfError := none

/-- The profile of a derivation into the caller's buffer. -/
def Profile.into {n : Nat} (prf : BlockPrf) (request : Request) (buffer : Buffer n) : Profile where
  width := prf.width
  rounds := request.rounds
  keyLength := n
  buffer := some buffer.toList

/-- The profile of a derivation into a new buffer. -/
def Profile.new (prf : BlockPrf) (request : Request) (n : Nat) : Profile where
  width := prf.width
  rounds := request.rounds
  keyLength := n

/-- **The profile of an operation.** -/
def profile : Operation → Profile
  | check width rounds n | makeParameters width rounds n =>
    { width := width, rounds := rounds, keyLength := n, derives := false }
  | derive prf request _ buffer => .into prf request buffer
  | deriveCancellable prf _ request _ buffer =>
    { Profile.into prf request buffer with ownError? := some .cancelled }
  | deriveHmacSha1 request _ buffer => .into hmacSha1 request buffer
  | deriveHmacSha256 request _ buffer => .into hmacSha256 request buffer
  | deriveHmacSha512 request _ buffer => .into hmacSha512 request buffer
  | deriveFresh prf request n | deriveKey prf request n => .new prf request n
  | verify prf expected request =>
    { Profile.new prf request expected.length with ownError? := some .mismatch }
  | deriveAs parameters prf password salt n buffer =>
    { Profile.into prf (parameters.request password salt) buffer with
      lengthError? := if n = parameters.keyLength then none
        else some (.lengthMismatch parameters.keyLength n) }
  | deriveKeyAs parameters prf password salt =>
    .new prf (parameters.request password salt) parameters.keyLength

/-! ### Carrying out an operation -/

/-- **What an operation answers**: its status, and the caller's buffer afterwards, if one was
handed over. A key that is returned in a new buffer is no part of it. -/
structure Reply where
  status : Except KdfError Unit
  buffer : Option Bytes

/-- The answer of a derivation into the caller's buffer. -/
def Reply.ofOutcome {n : Nat} (outcome : Outcome n) : Reply :=
  ⟨outcome.status, some outcome.buffer.toList⟩

/-- The answer of an operation that is handed no buffer. -/
def Reply.ofResult {α : Type} (result : Except KdfError α) : Reply :=
  ⟨result.map fun _ => (), none⟩

/-- **Carrying out an operation.** -/
def run : Operation → Journaled Reply
  | check width rounds n => .ofResult <$> checkLimits width rounds n
  | makeParameters width rounds n => .ofResult <$> Parameters.make width rounds n
  | derive prf request _ buffer => .ofOutcome <$> KeyDerivation.derive prf request buffer
  | deriveCancellable prf flag request _ buffer =>
    .ofOutcome <$> KeyDerivation.deriveCancellable prf flag request buffer
  | deriveHmacSha1 request _ buffer => .ofOutcome <$> KeyDerivation.deriveHmacSha1 request buffer
  | deriveHmacSha256 request _ buffer =>
    .ofOutcome <$> KeyDerivation.deriveHmacSha256 request buffer
  | deriveHmacSha512 request _ buffer =>
    .ofOutcome <$> KeyDerivation.deriveHmacSha512 request buffer
  | deriveFresh prf request n => .ofResult <$> KeyDerivation.deriveFresh prf request n
  | deriveKey prf request n => .ofResult <$> KeyDerivation.deriveKey prf request n
  | verify prf expected request => .ofResult <$> KeyDerivation.verify prf expected request
  | deriveAs parameters prf password salt _ buffer =>
    .ofOutcome <$> parameters.derive prf password salt buffer
  | deriveKeyAs parameters prf password salt =>
    .ofResult <$> parameters.deriveKey prf password salt

end Operation

end KeyDerivation
