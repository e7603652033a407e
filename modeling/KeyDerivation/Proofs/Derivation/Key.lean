import KeyDerivation.Proofs.Derivation.Engine
import KeyDerivation.Proofs.Hmac

/-!
# The derived key is the one of RFC 8018

`KeyDerivation.Prf.derivedKey` is the key as RFC 8018 defines it: block `i` begins with the
salt and the number `i`, in one message. Two things separate it from what the engine
writes. The engine goes from one segment of the buffer to the next, and the last segment
takes the front of its block only; `KeyDerivation.toList_written_plan` shows that the
segments add up to the front of all blocks. And the engine hands the first message over in
two pieces, which makes no difference to a function that does not mind pieces
(`KeyDerivation.Prf.Streams.key_eq`).
-/

namespace KeyDerivation

/-! ### Segments -/

namespace Segment

variable {w n : Nat}

theorem length_plan : (plan w n).length = count w n := List.length_ofFn

/-- The segments are cut from the blocks in turn, which are numbered from one. -/
theorem map_index_plan :
    (plan w n).map index = (List.range (count w n)).map fun i => UInt32.ofNat (i + 1) := by
  refine List.ext_getElem (by simp [length_plan]) fun i _ _ => ?_
  simp [plan]

/-- So many blocks are enough for a buffer exactly if it is not longer than they are. -/
theorem count_le_iff (pos : 0 < w) {most : Nat} : count w n ≤ most ↔ n ≤ most * w := by
  rw [count, Nat.div_le_iff_le_mul_add_pred pos, Nat.mul_comm]
  omega

/-- As many blocks as there are segments cover the buffer. -/
theorem le_count_mul (pos : 0 < w) : n ≤ count w n * w := (count_le_iff pos).mp (Nat.le_refl _)

/-- A place in the buffer falls in one of these blocks. -/
theorem div_lt_count {k : Nat} (pos : 0 < w) (hk : k < n) : k / w < count w n := by
  rw [Nat.div_lt_iff_lt_mul pos]
  exact Nat.lt_of_lt_of_le hk (le_count_mul pos)

/-- A block written behind a finished front, as far as it fits, prolongs the front. -/
theorem take_append_write (front block rest : Bytes) (hfront : front.length < n)
    (hblock : block.length = w) (hrest : rest.length = n) :
    (front.take n ++ rest.drop front.length).take front.length ++
        block.take (min w (n - front.length)) ++
        (front.take n ++ rest.drop front.length).drop
          (front.length + (block.take (min w (n - front.length))).length) =
      (front ++ block).take n ++ rest.drop (front.length + w) := by
  have hall : front.take n = front := List.take_of_length_le (Nat.le_of_lt hfront)
  rw [hall, List.take_left, List.drop_append, List.take_append, hall, List.length_take, hblock]
  rcases Nat.le_total w (n - front.length) with hfull | hcut
  · -- A full block, with the bytes of the rest from its end on.
    rw [Nat.min_eq_left hfull, List.take_of_length_le (by omega), List.take_of_length_le (by omega),
      List.drop_eq_nil_of_le (by omega)]
    simp
  · -- The last block: only its front fits, and nothing of the rest is left.
    rw [Nat.min_eq_right hcut, List.drop_eq_nil_of_le (by omega)]
    simp
    omega

/-- **After the first `k` segments** have been written, the buffer begins with the first
`k` blocks, as far as they fit, and goes on as before. -/
theorem toList_foldl_write_take (block : UInt32 → Buffer w) (buffer : Buffer n) {k : Nat}
    (hk : k ≤ count w n) :
    (((plan w n).take k).foldl (fun buffer segment =>
        segment.write (block segment.index) (Nat.le_refl w) buffer) buffer).toList =
      (joined ((List.range k).map fun i => block (UInt32.ofNat (i + 1)))).take n ++
        buffer.toList.drop (k * w) := by
  induction k with
  | zero => simp
  | succ k ih =>
    have hplace : k < (plan w n).length := by
      rw [length_plan]
      exact hk
    have hfront : (joined ((List.range k).map fun i => block (UInt32.ofNat (i + 1)))).length =
        k * w := by
      rw [length_joined, List.length_map, List.length_range]
    have hstep := take_append_write
      (joined ((List.range k).map fun i => block (UInt32.ofNat (i + 1))))
      (block (UInt32.ofNat (k + 1))).toList buffer.toList (hfront ▸ mul_lt_of_lt_count hk)
      Vector.length_toList Vector.length_toList
    rw [hfront, ← Nat.succ_mul] at hstep
    rw [List.take_succ_eq_append_getElem hplace, List.foldl_append, List.foldl_cons,
      List.foldl_nil, List.range_succ, List.map_append, joined_append, List.map_singleton,
      joined_cons, joined_nil, List.append_nil, ← hstep, write, Buffer.toList_overwrite,
      ih (Nat.le_of_succ_le hk)]
    simp only [plan, List.getElem_ofFn]

end Segment

/-! ### The key -/

/-- The pieces of a first message, if the number of the block fits in four bytes. -/
theorem firstPieces_ofNat (salt : Bytes) {i : Nat} (hi : i < 2 ^ 32) :
    firstPieces salt (UInt32.ofNat i) = [salt, bigEndian 4 i] := by
  have hnumber : (UInt32.ofNat i).toNat = i := UInt32.toNat_ofNat_of_lt' hi
  rw [firstPieces, hnumber]

section Key

variable {n : Nat} (prf : BlockPrf) (request : Request)

/-- **All segments together hold the key**, and nothing of what was there before. -/
theorem toList_written_plan (buffer : Buffer n) :
    (written prf request (Segment.plan prf.width n) buffer).toList =
      prf.key request.password (fun i => firstPieces request.salt (UInt32.ofNat i))
        request.rounds.toNat n := by
  have hall := Segment.toList_foldl_write_take
    (fun index => prf.block request.password (firstPieces request.salt index)
      request.rounds.toNat) buffer (Nat.le_refl (Segment.count prf.width n))
  have hplan : (Segment.plan prf.width n).take (Segment.count prf.width n) =
      Segment.plan prf.width n := List.take_of_length_le (Nat.le_of_eq Segment.length_plan)
  have hrest : buffer.toList.drop (Segment.count prf.width n * prf.width) = [] :=
    List.drop_eq_nil_of_le (by simpa using Segment.le_count_mul prf.width_pos)
  rw [hplan, hrest, List.append_nil] at hall
  exact hall

end Key

namespace Prf

variable (prf : Prf)

/-- **The key of RFC 8018**: the first message of block `i` is the salt followed by `i` in
four bytes. -/
def derivedKey (request : Request) (n : Nat) : Bytes :=
  prf.key request.password (fun i => [request.salt ++ bigEndian 4 i]) request.rounds.toNat n

variable {prf}

/-- A chain is known once its first link is. -/
theorem link_congr {password : Bytes} {pieces pieces' : List Bytes}
    (h : prf.value password pieces = prf.value password pieces') (j : Nat) :
    prf.link password pieces j = prf.link password pieces' j := by
  induction j with
  | zero => exact h
  | succ j ih => rw [link, link, ih]

theorem block_congr {password : Bytes} {pieces pieces' : List Bytes}
    (h : prf.value password pieces = prf.value password pieces') (rounds : Nat) :
    prf.block password pieces rounds = prf.block password pieces' rounds := by
  rw [block, block, funext (link_congr h)]

/-- For a function that does not mind pieces, the first message of a block is the salt
followed by its number. -/
theorem Streams.value_firstPieces (hstreams : prf.Streams) (password salt : Bytes) {i : Nat}
    (hi : i < 2 ^ 32) :
    prf.value password (firstPieces salt (UInt32.ofNat i)) =
      prf.value password [salt ++ bigEndian 4 i] := by
  rw [firstPieces_ofNat salt hi]
  exact hstreams password salt (bigEndian 4 i) [] []

/-- **The key the engine writes is the one of RFC 8018**, as long as the numbers of the
blocks fit in four bytes. -/
theorem Streams.key_eq (hstreams : prf.Streams) (request : Request) {n : Nat}
    (hcount : (n + prf.width - 1) / prf.width < 2 ^ 32) :
    prf.key request.password (fun i => firstPieces request.salt (UInt32.ofNat i))
      request.rounds.toNat n = prf.derivedKey request n := by
  have hblocks : ∀ i ∈ List.range ((n + prf.width - 1) / prf.width),
      prf.block request.password (firstPieces request.salt (UInt32.ofNat (i + 1)))
          request.rounds.toNat =
        prf.block request.password [request.salt ++ bigEndian 4 (i + 1)]
          request.rounds.toNat := by
    intro i hi
    have hlt := List.mem_range.mp hi
    exact block_congr (hstreams.value_firstPieces request.password request.salt (by omega)) _
  rw [derivedKey, key, key, List.map_congr_left hblocks]

end Prf

/-! ### Deriving -/

section Derive

variable {n : Nat} {prf : BlockPrf} {request : Request}

/-- Within the limits, there are fewer blocks than numbers of four bytes. -/
theorem count_lt_of_le_max (hmax : n ≤ (2 ^ 32 - 1) * prf.width) :
    (n + prf.width - 1) / prf.width < 2 ^ 32 :=
  Nat.lt_succ_of_le ((Segment.count_le_iff prf.width_pos).mpr hmax)

/-- Every width that a function can have is one for which the bound on the length is exact. -/
theorem BlockPrf.width_le_limit (prf : BlockPrf) : prf.width ≤ 2 ^ 32 + 1 :=
  Nat.le_trans prf.width_le (by decide)

theorem limitFault?_eq_none_of_le_max (hrounds : request.rounds ≠ 0) (hpos : 0 < n)
    (hmax : n ≤ (2 ^ 32 - 1) * prf.width) : limitFault? prf.width request.rounds n = none := by
  refine limitFault?_eq_none hrounds hpos ?_
  rw [toNat_maxKeyLength prf.width_le_limit]
  exact hmax

theorem count_lt_of_limitFault?_eq_none
    (hlimits : limitFault? prf.width request.rounds n = none) :
    Segment.count prf.width n < 2 ^ 32 := by
  have hmax := (limits_of_limitFault?_eq_none hlimits).2.2
  rw [toNat_maxKeyLength prf.width_le_limit] at hmax
  exact count_lt_of_le_max hmax

/-- **Without a flag, a derivation within the limits ends with the key in the buffer.** -/
theorem derive_apply (hlimits : limitFault? prf.width request.rounds n = none)
    (buffer : Buffer n) (journal : Journal) :
    derive prf request buffer journal =
      (⟨.ok (), written prf request (Segment.plan prf.width n) buffer⟩,
        (journal.begun request prf.width n).after (schedule prf.toPrf request n)) := by
  rw [derive, deriveCancellable_apply prf .never request hlimits, execute_never]
  rfl

theorem status_derive (hlimits : limitFault? prf.width request.rounds n = none)
    (buffer : Buffer n) (journal : Journal) :
    (derive prf request buffer journal).1.status = .ok () := by
  rw [derive_apply hlimits]

theorem toList_buffer_derive (hlimits : limitFault? prf.width request.rounds n = none)
    (buffer : Buffer n) (journal : Journal) :
    (derive prf request buffer journal).1.buffer.toList =
      prf.key request.password (fun i => firstPieces request.salt (UInt32.ofNat i))
        request.rounds.toNat n := by
  rw [derive_apply hlimits]
  exact toList_written_plan prf request buffer

/-- **A derivation within the limits writes the key of RFC 8018.** The buffer holds the key
and nothing of what was there before; on a stretch of a larger buffer, the bytes around
the stretch stay. No block depends on what an earlier one has left in the working
arrays. -/
theorem derive_eq_derivedKey (hstreams : prf.Streams) (hrounds : request.rounds ≠ 0)
    (hpos : 0 < n) (hmax : n ≤ (2 ^ 32 - 1) * prf.width) (journal : Journal) :
    (∀ buffer : Buffer n,
      let outcome := (derive prf request buffer journal).1
      outcome.status = .ok () ∧ outcome.buffer.toList = prf.derivedKey request n) ∧
    (∀ (m : Nat) (outer : Buffer m) (offset : Nat) (inside : offset + n ≤ m),
      let outcome := (deriveWithin prf .never request outer offset n inside journal).1
      outcome.status = .ok () ∧
        outcome.buffer.toList = outer.toList.take offset ++ prf.derivedKey request n ++
          outer.toList.drop (offset + n)) ∧
    ∀ i, 1 ≤ i → i ≤ (n + prf.width - 1) / prf.width → ∀ scratch : Scratch,
      let run := (deriveBlock prf .never request (UInt32.ofNat i) scratch journal).1
      run.1 = true ∧
        Scratch.front run.2.total prf.width =
          (prf.block request.password [request.salt ++ bigEndian 4 i]
            request.rounds.toNat).toList := by
  have hcount := count_lt_of_le_max hmax
  have hlimits : limitFault? prf.width request.rounds n = none :=
    limitFault?_eq_none_of_le_max hrounds hpos hmax
  have hkey : ∀ buffer : Buffer n,
      (written prf request (Segment.plan prf.width n) buffer).toList =
        prf.derivedKey request n := fun buffer =>
    (toList_written_plan prf request buffer).trans (hstreams.key_eq request hcount)
  refine ⟨fun buffer => ?_, fun m outer offset inside => ?_, fun i hone hi scratch => ?_⟩
  · rw [derive_apply hlimits]
    exact ⟨rfl, hkey buffer⟩
  · rw [deriveWithin_apply, ← derive, derive_apply hlimits]
    refine ⟨rfl, ?_⟩
    rw [Buffer.toList_splice, hkey]
  · obtain ⟨scratch', heq, hfront⟩ :=
      deriveBlock_executes prf .never request hrounds (UInt32.ofNat i) scratch journal
    rw [execute_never] at heq hfront
    rw [heq]
    refine ⟨rfl, (hfront rfl).trans ?_⟩
    rw [Prf.block_congr (hstreams.value_firstPieces _ _ (by omega))]

/-- HMAC-SHA-256, with a key that takes one full block and the front of a second one. -/
theorem derive_eq_derivedKey_hmacSha256 :
    let request : Request := ⟨[0x70, 0x77], [0x73, 0x61, 0x6c, 0x74], 3⟩
    (hmacSha256.Streams ∧ request.rounds ≠ 0 ∧ 0 < 40 ∧ 40 ≤ (2 ^ 32 - 1) * hmacSha256.width) ∧
    (∀ buffer : Buffer 40,
      let outcome := (derive hmacSha256 request buffer .empty).1
      outcome.status = .ok () ∧ outcome.buffer.toList = hmacSha256.derivedKey request 40) ∧
    (∀ (m : Nat) (outer : Buffer m) (offset : Nat) (inside : offset + 40 ≤ m),
      let outcome := (deriveWithin hmacSha256 .never request outer offset 40 inside .empty).1
      outcome.status = .ok () ∧
        outcome.buffer.toList = outer.toList.take offset ++ hmacSha256.derivedKey request 40 ++
          outer.toList.drop (offset + 40)) ∧
    ∀ i, 1 ≤ i → i ≤ 2 → ∀ scratch : Scratch,
      let run := (deriveBlock hmacSha256 .never request (UInt32.ofNat i) scratch .empty).1
      run.1 = true ∧
        Scratch.front run.2.total 32 =
          (hmacSha256.block request.password [request.salt ++ bigEndian 4 i] 3).toList :=
  have hstreams : hmacSha256.Streams := Hmac.streams_prf _ StreamingHash.streams_sha256
  ⟨⟨hstreams, by decide, by decide, by decide⟩,
    derive_eq_derivedKey hstreams (by decide) (by decide) (by decide) .empty⟩

end Derive

end KeyDerivation
