import KeyDerivation.Bytes

/-!
# Buffers: byte arrays of a fixed length

A `KeyDerivation.Buffer n` is an array of exactly `n` bytes, the thing a caller
hands over to be filled. Its length never changes, so what an operation does to a
buffer is said position by position:

* `KeyDerivation.Buffer.overwrite` replaces a stretch that is known to fit;
* `KeyDerivation.Buffer.writeFront?` replaces the first bytes, and refuses a buffer
  too short to hold them;
* `KeyDerivation.Buffer.clear` zeroes a stretch;
* `KeyDerivation.Buffer.replace?`, `KeyDerivation.Buffer.clear?` and
  `KeyDerivation.Buffer.overwriteEnd?` check the place first, and refuse one that the
  buffer does not have;
* `KeyDerivation.Buffer.stretch` and `KeyDerivation.Buffer.splice` take a stretch out
  of a larger buffer and put one back, which is how part of a buffer is lent out to
  be filled while the bytes around it stay as they are.
-/

namespace KeyDerivation

/-- An array of exactly `n` bytes. -/
abbrev Buffer (n : Nat) := Vector UInt8 n

namespace Buffer

variable {m n : Nat}

/-- The buffer of `n` zero bytes. -/
def zeros (n : Nat) : Buffer n := Vector.replicate n 0

/-- The buffer holding a byte string of the right length. -/
def ofBytes (bytes : Bytes) (length_eq : bytes.length = n) : Buffer n :=
  ⟨bytes.toArray, by simpa using length_eq⟩

@[simp]
theorem toList_ofBytes (bytes : Bytes) (length_eq : bytes.length = n) :
    (ofBytes bytes length_eq).toList = bytes := rfl

/-! ### Writing -/

/-- **Overwriting a stretch**: the bytes from `offset` on are replaced by the given
ones, which fit, and all others stay. -/
def overwrite (buffer : Buffer n) (offset : Nat) :
    (bytes : Bytes) → offset + bytes.length ≤ n → Buffer n
  | [], _ => buffer
  | b :: rest, fits =>
    overwrite (buffer.set offset b (by simp at fits; omega)) (offset + 1) rest
      (by simp at fits; omega)

/-- Overwrites the first bytes of a buffer, or nothing at all when the buffer is
shorter than what is to be written. -/
def writeFront? (buffer : Buffer n) (bytes : Bytes) : Option (Buffer n) :=
  if fits : bytes.length ≤ n then some (buffer.overwrite 0 bytes (by omega)) else none

/-- **What overwriting leaves**: the bytes before the stretch, the new ones, and the
bytes behind them. -/
theorem toList_overwrite (buffer : Buffer n) (offset : Nat) (bytes : Bytes)
    (fits : offset + bytes.length ≤ n) :
    (buffer.overwrite offset bytes fits).toList =
      buffer.toList.take offset ++ bytes ++ buffer.toList.drop (offset + bytes.length) := by
  induction bytes generalizing buffer offset with
  | nil => simp [overwrite]
  | cons b rest ih =>
    have inside : offset < n := by simp at fits; omega
    have front : (buffer.toList.set offset b).take (offset + 1) =
        buffer.toList.take offset ++ [b] := by
      rw [List.take_succ_eq_append_getElem (by simpa using inside), List.getElem_set_self,
        List.take_set, List.set_eq_of_length_le (by rw [List.length_take]; omega)]
    have back : (buffer.toList.set offset b).drop (offset + 1 + rest.length) =
        buffer.toList.drop (offset + (b :: rest).length) := by
      rw [List.drop_set_of_lt (by omega), List.length_cons]
      congr 1
      omega
    rw [overwrite, ih, Vector.toList_set, front, back, List.append_assoc, List.append_assoc,
      List.append_assoc, List.singleton_append, List.cons_append]

/-- **Up to the end of the stretch**, overwriting leaves the bytes before it and the new
ones. -/
theorem take_overwrite (buffer : Buffer n) (offset : Nat) (bytes : Bytes)
    (fits : offset + bytes.length ≤ n) :
    (buffer.overwrite offset bytes fits).toList.take (offset + bytes.length) =
      buffer.toList.take offset ++ bytes := by
  have hlen : (buffer.toList.take offset ++ bytes).length = offset + bytes.length := by
    simp
    omega
  rw [toList_overwrite, List.take_left' hlen]

theorem take_overwrite_zero (buffer : Buffer n) (bytes : Bytes) (fits : 0 + bytes.length ≤ n) :
    (buffer.overwrite 0 bytes fits).toList.take bytes.length = bytes := by
  simpa using take_overwrite buffer 0 bytes fits

/-- A stretch that reaches the end of the buffer leaves nothing behind it. -/
theorem toList_overwrite_end (buffer : Buffer n) (offset : Nat) (bytes : Bytes)
    (fits : offset + bytes.length ≤ n) (hend : offset + bytes.length = n) :
    (buffer.overwrite offset bytes fits).toList = buffer.toList.take offset ++ bytes := by
  rw [toList_overwrite, hend, List.drop_eq_nil_of_le (by simp), List.append_nil]

/-- **What writing to the front leaves**: the new bytes and the old ones behind them,
or nothing if the buffer is too short. -/
theorem map_toList_writeFront? (buffer : Buffer n) (bytes : Bytes) :
    (buffer.writeFront? bytes).map Vector.toList =
      if bytes.length ≤ n then some (bytes ++ buffer.toList.drop bytes.length) else none := by
  unfold writeFront?
  split
  · rw [Option.map_some, toList_overwrite, List.take_zero, List.nil_append, Nat.zero_add]
  · rfl

/-- Zeroes the bytes from `start` on, up to but not including the one at `stop`. -/
def clear (buffer : Buffer n) (start stop : Nat) : Buffer n :=
  buffer.mapIdx fun i b => if start ≤ i ∧ i < stop then 0 else b

/-- **What clearing leaves**: zeros in the stretch, and the bytes around it. -/
theorem toList_clear (buffer : Buffer n) {start stop : Nat} (hstart : start ≤ stop)
    (hstop : stop ≤ n) :
    (buffer.clear start stop).toList =
      buffer.toList.take start ++ List.replicate (stop - start) 0 ++ buffer.toList.drop stop := by
  -- Position by position: in front of the stretch, in it, or behind it.
  refine List.ext_getElem (by simp; omega) fun i hi _ => ?_
  have hin : i < n := by simpa using hi
  rcases Nat.lt_or_ge i start with hlow | hlow
  · have hkept : i < min start n := by omega
    simp [clear, hkept, Nat.not_le.mpr hlow]
  rcases Nat.lt_or_ge i stop with hmid | hmid
  · rw [List.getElem_append_left (by simp; omega), List.getElem_append_right (by simp; omega),
      List.getElem_replicate]
    simp [clear, hlow, hmid]
  · have hfree : ¬i < min start n := by omega
    have hzero : ¬i - min start n < stop - start := by omega
    have hplace : stop + (i - min start n - (stop - start)) = i := by omega
    simp [clear, List.getElem_append, hfree, hzero, hplace, Nat.not_lt.mpr hmid]

/-- Up to the end of the stretch, clearing leaves the bytes before it and zeros. -/
theorem take_clear (buffer : Buffer n) {start stop : Nat} (hstart : start ≤ stop)
    (hstop : stop ≤ n) :
    (buffer.clear start stop).toList.take stop =
      buffer.toList.take start ++ List.replicate (stop - start) 0 := by
  have hlen : (buffer.toList.take start ++ List.replicate (stop - start) 0).length = stop := by
    simp
    omega
  rw [toList_clear buffer hstart hstop, List.take_left' hlen]

/-- A buffer cleared from end to end holds zeros only. -/
theorem clear_all (buffer : Buffer n) : buffer.clear 0 n = zeros n := by
  refine Vector.ext fun i hi => ?_
  simp [clear, zeros, hi]

/-! ### Writing after a check -/

/-- Replaces the byte at a place, if there is such a place. -/
def replace? (buffer : Buffer n) (place : Nat) (b : UInt8) : Option (Buffer n) :=
  if inside : place < n then some (buffer.set place b inside) else none

/-- Zeroes the bytes from `start` on, up to but not including the one at `stop`, if this is
a stretch of the buffer. -/
def clear? (buffer : Buffer n) (start stop : Nat) : Option (Buffer n) :=
  if start ≤ stop ∧ stop ≤ n then some (buffer.clear start stop) else none

/-- Replaces all bytes from `offset` on, if there are exactly as many new ones. -/
def overwriteEnd? (buffer : Buffer n) (offset : Nat) (bytes : Bytes) : Option (Buffer n) :=
  if exact : offset + bytes.length = n then
    some (buffer.overwrite offset bytes (Nat.le_of_eq exact))
  else none

theorem replace?_of_lt (buffer : Buffer n) {place : Nat} (inside : place < n) (b : UInt8) :
    buffer.replace? place b = some (buffer.set place b inside) := dif_pos inside

theorem clear?_of_le (buffer : Buffer n) {start stop : Nat} (hstart : start ≤ stop)
    (hstop : stop ≤ n) : buffer.clear? start stop = some (buffer.clear start stop) :=
  if_pos ⟨hstart, hstop⟩

theorem clear?_of_lt (buffer : Buffer n) (start : Nat) {stop : Nat} (hstop : n < stop) :
    buffer.clear? start stop = none :=
  if_neg fun h => Nat.not_le.mpr hstop h.2

theorem overwriteEnd?_of_eq (buffer : Buffer n) {offset : Nat} {bytes : Bytes}
    (exact : offset + bytes.length = n) :
    buffer.overwriteEnd? offset bytes =
      some (buffer.overwrite offset bytes (Nat.le_of_eq exact)) := dif_pos exact

/-- Combines the first `w` bytes with those of another buffer by exclusive or. -/
def xorFront (x y : Buffer n) (w : Nat) : Buffer n :=
  Vector.ofFn fun i => if i.val < w then x[i] ^^^ y[i] else x[i]

/-! ### Stretches of a larger buffer -/

/-- The `n` bytes of a larger buffer from `offset` on. -/
def stretch (outer : Buffer m) (offset n : Nat) (inside : offset + n ≤ m) : Buffer n :=
  Vector.ofFn fun i => outer[offset + i.val]

/-- **Putting a stretch back**: the `n` bytes from `offset` on are replaced by those
of `inner`, the bytes around them stay. -/
def splice (outer : Buffer m) (offset : Nat) (inner : Buffer n) (inside : offset + n ≤ m) :
    Buffer m :=
  outer.overwrite offset inner.toList (by simpa using inside)

/-- **What putting a stretch back leaves**: its bytes, between those around it. -/
theorem toList_splice (outer : Buffer m) (offset : Nat) (inner : Buffer n)
    (inside : offset + n ≤ m) :
    (outer.splice offset inner inside).toList =
      outer.toList.take offset ++ inner.toList ++ outer.toList.drop (offset + n) := by
  rw [splice, toList_overwrite, Vector.length_toList]

end Buffer

end KeyDerivation
