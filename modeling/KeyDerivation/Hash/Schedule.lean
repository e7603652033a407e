import KeyDerivation.Hash.Word

/-!
# Message schedules

A compression function of the SHA family works through more words than a block has:
the sixteen words of the block begin the **message schedule**, and every further
word is computed from the sixteen before it. `KeyDerivation.Schedule.extend` grows the
schedule by one word at a time at its end, so a word is only ever read after it has
been written, and the length in the type shows that every place read exists.

The same schedule can be computed in an array that has room for all of it from the start
(`KeyDerivation.Schedule.inPlace?`). There nothing in the types keeps a step from looking at a
place that does not exist or has not been written yet, so every step checks, and is refused if
it does.
-/

namespace KeyDerivation

namespace Schedule

variable {W : Type}

/-- **The schedule of `16 + k` words** that starts with the words of a block.
`next` computes a word from the schedule before it; its sixteen last words stand at
places `k` to `k + 15`. -/
def extend (next : (k : Nat) → Vector W (16 + k) → W) (first : Vector W 16) :
    (k : Nat) → Vector W (16 + k)
  | 0 => first
  | k + 1 =>
    let words := extend next first k
    words.push (next k words)

/-! ### In place -/

/-- **A schedule that is being filled**: at every place a word, or nothing yet. -/
abbrev Places (W : Type) (n : Nat) := Vector (Option W) n

namespace Places

variable {n : Nat}

/-- The places before anything is written. -/
def blank (n : Nat) : Places W n := Vector.replicate n none

/-- The word at a place, if there is such a place and it has been written. -/
def read? (places : Places W n) (t : Nat) : Option W := places[t]?.join

/-- The word that stands some number of places before another one. -/
def readBack? (places : Places W n) (t back : Nat) : Option W :=
  if back ≤ t then places.read? (t - back) else none

/-- Writes a word, if there is such a place. -/
def write? (places : Places W n) (t : Nat) (x : W) : Option (Places W n) :=
  if inside : t < n then some (places.set t (some x) inside) else none

/-- Writes words one after the other, from a place on. -/
def writeAll? : (words : List W) → (t : Nat) → Places W n → Option (Places W n)
  | [], _, places => some places
  | x :: rest, t, places => do writeAll? rest (t + 1) (← places.write? t x)

/-- Computes the words of some number of places, from a place on. `next?` computes a word from
those before it, which it asks for by their distance. -/
def fill? (next? : (Nat → Option W) → Option W) :
    (count t : Nat) → Places W n → Option (Places W n)
  | 0, _, places => some places
  | count + 1, t, places => do
    let x ← next? (places.readBack? t)
    fill? next? count (t + 1) (← places.write? t x)

end Places

/-- **The schedule in place**: the words of a block are written to the first places, and all
further ones are computed where they belong. -/
def inPlace? (next? : (Nat → Option W) → Option W) (first : Vector W 16) (k : Nat) :
    Option (Places W (16 + k)) := do
  Places.fill? next? k 16 (← Places.writeAll? first.toList 0 (Places.blank (16 + k)))

/-- **Rounds that may be refused**, as many as said and counted from zero. -/
def rounds? {V : Type} (round? : Nat → V → Option V) : Nat → V → Option V
  | 0, v => some v
  | t + 1, v => do round? t (← rounds? round? t v)

end Schedule

end KeyDerivation
