import KeyDerivation.Buffer

/-!
# Cutting a byte stream into blocks, and padding its end

An iterated hash consumes its message in blocks of `n` bytes, while the message
arrives in pieces of any size. A `KeyDerivation.PartialBlock n` stands between the
two: it keeps the bytes that do not fill a block yet.

* `KeyDerivation.PartialBlock.absorb` takes a piece of the stream and returns the
  blocks it completes, in order;
* `KeyDerivation.PartialBlock.close` ends the stream by the strengthening padding: the
  byte `0x80`, as many zeros as it takes, and a length field at the very end of the
  last block. `KeyDerivation.PartialBlock.close?` refuses a field longer than a block;
* `KeyDerivation.PartialBlock.closeInPlace` does the same one write after the other, each
  of them checked, and hands a block out as soon as it is complete.

The bytes live in one array of `n` bytes that is written in place, so the positions
from `used` on hold what an earlier block left there. They are not part of the
stream: `KeyDerivation.PartialBlock.pending` is, and the padding clears the others
before a block is handed out.
-/

namespace KeyDerivation

/-- **An unfinished block**: `used` bytes of the stream at the front of an array of
`n` bytes, with room for at least one more. What stands behind them is left over
from earlier blocks. -/
structure PartialBlock (n : Nat) where
  /-- The array the bytes are kept in. -/
  store : Buffer n
  /-- How many bytes at its front belong to the stream. -/
  used : Nat
  used_lt : used < n

namespace PartialBlock

variable {n : Nat}

/-- The block that holds nothing yet, all its bytes zero. -/
def empty (pos : 0 < n) : PartialBlock n := ⟨Buffer.zeros n, 0, pos⟩

/-- Forgets the bytes of the stream and zeroes the array. -/
def wipe (block : PartialBlock n) : PartialBlock n := empty (Nat.zero_lt_of_lt block.used_lt)

/-- The bytes of the stream that wait for the rest of their block. -/
def pending (block : PartialBlock n) : Bytes := block.store.toList.take block.used

/-! ### The stream -/

/-- The first `k` blocks of a byte string that is long enough for them. -/
def leadingBlocks (n : Nat) :
    (k : Nat) → (data : Bytes) → k * n ≤ data.length → List (Buffer n)
  | 0, _, _ => []
  | k + 1, data, long =>
    have more : k * n + n ≤ data.length := Nat.succ_mul k n ▸ long
    .ofBytes (data.take n) (by simp; omega) ::
      leadingBlocks n k (data.drop n) (by simp; omega)

/-- Absorbing a piece when no byte is pending: its whole blocks are handed on as they
stand, and what remains goes to the front of the array. -/
def absorbAligned (store : Buffer n) (pos : 0 < n) (data : Bytes) :
    List (Buffer n) × PartialBlock n :=
  let whole := data.length / n
  let rest := data.drop (whole * n)
  have rest_lt : rest.length < n := by
    simpa [rest, whole, Nat.mod_eq_sub_div_mul] using Nat.mod_lt data.length pos
  (leadingBlocks n whole data (Nat.div_mul_le_self _ _),
    ⟨store.overwrite 0 rest (by omega), rest.length, rest_lt⟩)

/-- **Absorbing a piece of the stream**: the blocks its bytes complete, in order,
and the block that holds what remains. Bytes that were pending are completed first,
in the array; only then are blocks taken from the piece itself. -/
def absorb (block : PartialBlock n) (data : Bytes) : List (Buffer n) × PartialBlock n :=
  have pos : 0 < n := Nat.zero_lt_of_lt block.used_lt
  if 0 < block.used then
    let taken := data.take (n - block.used)
    have fits : block.used + taken.length ≤ n := by
      have := block.used_lt
      simp [taken]
      omega
    let store := block.store.overwrite block.used taken fits
    if more : block.used + taken.length < n then
      ([], ⟨store, block.used + taken.length, more⟩)
    else
      let (blocks, rest) := absorbAligned store pos (data.drop taken.length)
      (store :: blocks, rest)
  else
    absorbAligned block.store pos data

/-! ### The end of the stream -/

/-- **Closing the stream**: the padded last block, with the length field at its end,
or two blocks when the field does not fit behind the end marker. Then the second
one is made in the array that held the first. What is left is empty. -/
def close (block : PartialBlock n) (field : Bytes) (fits : field.length ≤ n) :
    List (Buffer n) × PartialBlock n :=
  let tail := n - field.length
  let withField (last : Buffer n) : Buffer n := last.overwrite tail field (by omega)
  let marked : Buffer n := block.store.set block.used 0x80 block.used_lt
  let blocks :=
    if block.used + 1 ≤ tail then
      [withField (marked.clear (block.used + 1) tail)]
    else
      -- The zeros fill up this block, and the next one consists of zeros and the field.
      let spilled := marked.clear (block.used + 1) n
      [spilled, withField (spilled.clear 0 tail)]
  (blocks, block.wipe)

/-- Closes the stream with a length field of any size; one longer than a block is
refused, and then no block is produced. -/
def close? (block : PartialBlock n) (field : Bytes) :
    Option (List (Buffer n) × PartialBlock n) :=
  if fits : field.length ≤ n then some (block.close field fits) else none

end PartialBlock

/-! ### The end of the stream, step by step -/

/-- **A computation that hands out blocks** as it goes, and may be refused on the way. What
it has handed out by then stays handed out. -/
abbrev HandingOut (n : Nat) := OptionT (StateM (List (Buffer n)))

/-- Hands out a block, behind those that were handed out before. -/
def handOut {n : Nat} (block : Buffer n) : HandingOut n Unit := modify (· ++ [block])

namespace PartialBlock

variable {n : Nat}

/-- The last block: zeros from `used` on, the length field from `tail` on. -/
def handOutLast (store : Buffer n) (used tail : Nat) (field : Bytes) : HandingOut n Unit := do
  let cleared ← liftOption (store.clear? used tail)
  let last ← liftOption (cleared.overwriteEnd? tail field)
  handOut last

/-- Closing the stream with a length field that is to begin at the place `tail`. -/
def closeWithTail (block : PartialBlock n) (field : Bytes) (tail : Nat) :
    HandingOut n (PartialBlock n) := do
  let marked ← liftOption (block.store.replace? block.used 0x80)
  if tail < block.used + 1 then
    let spilled ← liftOption (marked.clear? (block.used + 1) n)
    handOut spilled
    handOutLast spilled 0 tail field
  else
    handOutLast marked (block.used + 1) tail field
  return block.wipe

/-- **Closing the stream in place**: every write is checked, and a block is handed out as
soon as it is complete. What is refused first for a field longer than a block is the
difference that says where the field begins. -/
def closeInPlace (block : PartialBlock n) (field : Bytes) : HandingOut n (PartialBlock n) := do
  guard (field.length ≤ n)
  closeWithTail block field (n - field.length)

end PartialBlock

end KeyDerivation
