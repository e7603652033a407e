import KeyDerivation.Hash.Sha1
import KeyDerivation.Proofs.Hash.Constants
import KeyDerivation.Proofs.Hash.InPlace

/-!
# The compression functions are those of the standard

The compression functions compute with machine words, grow a schedule, and fold the rounds over
it. `KeyDerivation.Standard` says what they should compute, on strings of bits. This file shows
that they do:

* a schedule that begins like the one of the standard and goes on like it is the one of the
  standard, as far as it has been grown (`KeyDerivation.Schedule.read_extend`);
* rounds that do what those of the standard do make the same of the working variables
  (`KeyDerivation.Standard.read_fold`);
* and the single steps agree. For SHA-1 this is where choice and majority, written with "or",
  turn out to be those of the standard, which are written with exclusive or.

The two members of the SHA-2 family are one construction, and
`KeyDerivation.Sha2.Follows.bits_compress` is one theorem about both; what a member chooses is
compared with the choice of the standard in `KeyDerivation.Sha2.Follows`.
-/

namespace KeyDerivation

open Word

/-! ### Blocks, schedules and rounds -/

theorem Buffer.toList_stretch {m n : Nat} (outer : Buffer m) (offset : Nat)
    (inside : offset + n ≤ m) :
    (outer.stretch offset n inside).toList = (outer.toList.drop offset).take n := by
  refine List.ext_getElem (by simp; omega) fun i _ _ => ?_
  simp [stretch]

/-- The bits of bytes are those of the number that the bytes spell, as many as fit. -/
theorem Standard.ofBytes_eq {w : Nat} (bytes : Bytes) :
    (ofBytes bytes : BitVec w) = BitVec.ofNat w (bigEndianValue bytes) := by
  refine List.foldl_hom (BitVec.ofNat w) fun value b => BitVec.eq_of_toNat_eq ?_
  -- Putting a byte behind is multiplying by 256 and adding it.
  rw [BitVec.toNat_setWidth, BitVec.toNat_append, ← Nat.shiftLeft_add_eq_or_of_lt b.toBitVec.isLt,
    Nat.shiftLeft_eq, BitVec.toNat_ofNat, BitVec.toNat_ofNat, Nat.add_mod, Nat.mod_mul_mod,
    ← Nat.add_mod, Nat.mul_comm]
  rfl

/-- **The words of a block** are those of the standard. -/
theorem Word.bits_ofBlock {W : Type} [Word W] [LawfulWord W] (block : Buffer (16 * width W))
    {t : Nat} (ht : t < 16) :
    bits (ofBlock block : Vector W 16)[t] = Standard.blockWord block.toList t := by
  have hbytes : 8 * width W / 8 = width W := Nat.mul_div_cancel_left _ (by decide)
  rw [ofBlock, Vector.getElem_ofFn, ofBytes, LawfulWord.bits_ofNat, Buffer.toList_stretch,
    Standard.blockWord, Standard.ofBytes_eq, hbytes]

/-- **A schedule that follows a recursion** is its solution, as far as it has been grown. -/
theorem Schedule.read_extend {W V : Type} {next : (k : Nat) → Vector W (16 + k) → W}
    {first : Vector W 16} (read : W → V) {word : Nat → V}
    (hfirst : ∀ t (ht : t < 16), read first[t] = word t)
    (hnext : ∀ k (words : Vector W (16 + k)),
      (∀ t (ht : t < 16 + k), read words[t] = word t) → read (next k words) = word (16 + k))
    (k : Nat) {t : Nat} (ht : t < 16 + k) : read (extend next first k)[t] = word t := by
  induction k generalizing t with
  | zero => exact hfirst t ht
  | succ k ih =>
    simp only [extend]
    rcases Nat.lt_or_ge t (16 + k) with hold | hnew
    · rw [Vector.getElem_push_lt hold]
      exact ih hold
    · obtain rfl : t = 16 + k := by omega
      rw [Vector.getElem_push_eq]
      exact hnext k _ fun t ht => ih ht

/-- **Rounds that follow others** make the same of what they are given. -/
theorem Standard.read_fold {U V : Type} (read : U → V) {n : Nat}
    (round : (t : Nat) → t < n → U → U) (standard : Nat → V → V)
    (h : ∀ t (ht : t < n) (u : U), read (round t ht u) = standard t (read u)) (u : U) :
    read (Nat.fold n round u) = iterate standard (read u) n := by
  induction n with
  | zero => rfl
  | succ n ih =>
    rw [Nat.fold_succ, h n (Nat.lt_succ_self n),
      ih _ fun t ht u => h t (Nat.lt_succ_of_lt ht) u]
    rfl

/-! ### The SHA-2 family -/

namespace Sha2

variable {W : Type} [Word W]

/-- **A member of the family makes the choices of the standard.** -/
structure Follows (family : Sha2 W) (standard : Standard.Family (8 * width W)) : Prop where
  bits_bigSigma0 (x : W) : bits (family.bigSigma0 x) = standard.bigSigma0 (bits x)
  bits_bigSigma1 (x : W) : bits (family.bigSigma1 x) = standard.bigSigma1 (bits x)
  bits_smallSigma0 (x : W) : bits (family.smallSigma0 x) = standard.smallSigma0 (bits x)
  bits_smallSigma1 (x : W) : bits (family.smallSigma1 x) = standard.smallSigma1 (bits x)
  bits_constants {t : Nat} (ht : t < 16 + family.extraRounds) :
    bits family.constants[t] = standard.constant t
  bits_initial : family.initial.bits = standard.initial
  rounds_eq : standard.rounds = 16 + family.extraRounds

section LawfulWord

variable [LawfulWord W]

theorem bits_choose (x y z : W) :
    bits (choose x y z) = Standard.choice (bits x) (bits y) (bits z) := by
  rw [choose, LawfulWord.bits_xor, LawfulWord.bits_and, LawfulWord.bits_and, LawfulWord.bits_not,
    Standard.choice]

theorem bits_majority (x y z : W) :
    bits (majority x y z) = Standard.majority (bits x) (bits y) (bits z) := by
  rw [majority, LawfulWord.bits_xor, LawfulWord.bits_xor, LawfulWord.bits_and,
    LawfulWord.bits_and, LawfulWord.bits_and, Standard.majority]

variable {family : Sha2 W} {standard : Standard.Family (8 * width W)}

/-- The next word of a schedule is the one of the standard, if all words before it are. -/
theorem Follows.bits_nextWord (h : family.Follows standard) {block : Bytes} {k : Nat}
    {words : Vector W (16 + k)}
    (hwords : ∀ t (ht : t < 16 + k), bits words[t] = standard.word block t) :
    bits (family.nextWord k words) = standard.word block (16 + k) := by
  rw [Standard.Family.word, if_neg (by omega), nextWord]
  simp only [LawfulWord.bits_add, h.bits_smallSigma0, h.bits_smallSigma1, hwords,
    show 16 + k - 2 = k + 14 by omega, show 16 + k - 7 = k + 9 by omega,
    show 16 + k - 15 = k + 1 by omega, Nat.add_sub_cancel_left]
  -- The same four words, added in another order.
  ac_rfl

theorem Follows.bits_extend (h : family.Follows standard)
    (block : Buffer (16 * width W)) (k : Nat) {t : Nat} (ht : t < 16 + k) :
    bits (Schedule.extend family.nextWord (ofBlock block) k)[t] =
      standard.word block.toList t := by
  refine Schedule.read_extend bits (fun t ht => ?_) (fun k words hwords => ?_) k ht
  · rw [bits_ofBlock block ht, Standard.Family.word, if_pos ht]
  · exact h.bits_nextWord hwords

theorem Follows.bits_round (h : family.Follows standard) (k x : W) (v : Octet W) :
    (family.round k x v).bits = standard.round (bits k) (bits x) v.bits := by
  simp only [round, Octet.bits, Standard.Family.round, LawfulWord.bits_add, h.bits_bigSigma0,
    h.bits_bigSigma1, bits_choose, bits_majority]

/-- **The compression function of a member of the family** is that of the standard. -/
theorem Follows.bits_compress (h : family.Follows standard) (chain : Octet W)
    (block : Buffer (16 * width W)) :
    (family.compress chain block).bits = standard.hash chain.bits block.toList := by
  have hrounds := Standard.read_fold Octet.bits
    (fun t h v => family.round family.constants[t]
      (Schedule.extend family.nextWord (ofBlock block) family.extraRounds)[t] v)
    (fun t => standard.round (standard.constant t) (standard.word block.toList t))
    (fun t ht v => by rw [h.bits_round, h.bits_constants ht, h.bits_extend block _ ht]) chain
  rw [compress, Standard.Family.hash, h.rounds_eq, ← hrounds]
  simp only [Octet.add, Octet.bits, LawfulWord.bits_add, BitVec.add_comm]

end LawfulWord

theorem looksBack_nextWord (family : Sha2 W) :
    Schedule.LooksBack family.nextWord? family.nextWord := by
  intro k words back hback
  simp only [nextWord?, nextWord, hback 16 (by decide) (by decide),
    hback 15 (by decide) (by decide), hback 7 (by decide) (by decide),
    hback 2 (by decide) (by decide), Option.bind_eq_bind, Option.bind_some, Option.pure_def,
    show 16 + k - 2 = k + 14 by omega, show 16 + k - 7 = k + 9 by omega,
    show 16 + k - 15 = k + 1 by omega, Nat.add_sub_cancel_left]

/-- **In place**, the compression function is never refused, and the same. -/
theorem compressInPlace?_eq (family : Sha2 W) (chain : Octet W)
    (block : Buffer (16 * width W)) :
    family.compressInPlace? chain block = some (family.compress chain block) := by
  obtain ⟨places, hplaces, hread⟩ := Schedule.exists_inPlace?_eq (looksBack_nextWord family)
    (ofBlock block) family.extraRounds
  have hrounds := Schedule.rounds?_eq (16 + family.extraRounds)
    (fun t v => do
      return family.round (← family.constants[t]?) (← places.read? t) v)
    (fun t h v => family.round family.constants[t]
      (Schedule.extend family.nextWord (ofBlock block) family.extraRounds)[t] v)
    (fun t ht v => by rw [Vector.getElem?_eq_getElem ht, hread t ht]; rfl) chain
  simp only [compressInPlace?, hplaces, Option.bind_eq_bind, Option.bind_some] at hrounds ⊢
  rw [hrounds]
  rfl

end Sha2

section Choices

variable {W : Type} [Word W] [LawfulWord W] (x : W) {i j k : Nat}

/-- Three rotations combined are combined rotations of the bits. -/
theorem bits_rotations (hi : 0 < i ∧ i < 8 * width W) (hj : 0 < j ∧ j < 8 * width W)
    (hk : 0 < k ∧ k < 8 * width W) :
    bits (rotateRight x i ^^^ rotateRight x j ^^^ rotateRight x k) =
      (bits x).rotateRight i ^^^ (bits x).rotateRight j ^^^ (bits x).rotateRight k := by
  rw [LawfulWord.bits_xor, LawfulWord.bits_xor, LawfulWord.bits_rotateRight x hi.1 hi.2,
    LawfulWord.bits_rotateRight x hj.1 hj.2, LawfulWord.bits_rotateRight x hk.1 hk.2]

/-- So are two rotations and a shift. -/
theorem bits_rotations_shift (hi : 0 < i ∧ i < 8 * width W) (hj : 0 < j ∧ j < 8 * width W)
    (hk : k < 8 * width W) :
    bits (rotateRight x i ^^^ rotateRight x j ^^^ shiftRight x k) =
      (bits x).rotateRight i ^^^ (bits x).rotateRight j ^^^ bits x >>> k := by
  rw [LawfulWord.bits_xor, LawfulWord.bits_xor, LawfulWord.bits_rotateRight x hi.1 hi.2,
    LawfulWord.bits_rotateRight x hj.1 hj.2, LawfulWord.bits_shiftRight x hk]

end Choices

theorem follows_sha256 : Sha256.family.Follows Standard.sha256 where
  bits_bigSigma0 x := bits_rotations x (by decide) (by decide) (by decide)
  bits_bigSigma1 x := bits_rotations x (by decide) (by decide) (by decide)
  bits_smallSigma0 x := bits_rotations_shift x (by decide) (by decide) (by decide)
  bits_smallSigma1 x := bits_rotations_shift x (by decide) (by decide) (by decide)
  bits_constants ht := Standard.bits_constants_sha256 ht
  bits_initial := Standard.bits_initial_sha256
  rounds_eq := rfl

theorem follows_sha512 : Sha512.family.Follows Standard.sha512 where
  bits_bigSigma0 x := bits_rotations x (by decide) (by decide) (by decide)
  bits_bigSigma1 x := bits_rotations x (by decide) (by decide) (by decide)
  bits_smallSigma0 x := bits_rotations_shift x (by decide) (by decide) (by decide)
  bits_smallSigma1 x := bits_rotations_shift x (by decide) (by decide) (by decide)
  bits_constants ht := Standard.bits_constants_sha512 ht
  bits_initial := Standard.bits_initial_sha512
  rounds_eq := rfl

/-! ### SHA-1 -/

namespace Sha1

/-- The bits of five words. -/
def Quintet.bits (x : Quintet) : Standard.Five 32 :=
  ⟨x.a.toBitVec, x.b.toBitVec, x.c.toBitVec, x.d.toBitVec, x.e.toBitVec⟩

/-- Turning to the right by what remains of a word is turning to the left. -/
theorem rotateRight_sub {w k : Nat} (x : BitVec w) (hpos : 0 < k) (hlt : k < w) :
    x.rotateRight (w - k) = x.rotateLeft k := by
  have hrest : w - k < w := by omega
  have hback : w - (w - k) = k := by omega
  rw [BitVec.rotateRight_def, BitVec.rotateLeft_def, Nat.mod_eq_of_lt hrest, Nat.mod_eq_of_lt hlt,
    hback, BitVec.or_comm]

theorem toBitVec_rotateLeft (x : UInt32) {k : Nat} (hpos : 0 < k) (hlt : k < 32) :
    (rotateLeft x k).toBitVec = x.toBitVec.rotateLeft k := by
  have h := LawfulWord.bits_rotateRight x (k := 32 - k) (by omega) (show 32 - k < 32 by omega)
  rw [bits_uint32, bits_uint32] at h
  exact h.trans (rotateRight_sub x.toBitVec hpos hlt)

/-- Of the two terms of a choice never both have a bit. -/
theorem choice_eq_or {w : Nat} (x y z : BitVec w) :
    Standard.choice x y z = x &&& y ||| ~~~x &&& z := by
  refine BitVec.eq_of_getElem_eq fun i hi => ?_
  simp only [Standard.choice, BitVec.getElem_xor, BitVec.getElem_or, BitVec.getElem_and,
    BitVec.getElem_not]
  cases x[i] <;> simp

/-- A bit that two of the terms of a majority have, the third one has as well. -/
theorem majority_eq_or {w : Nat} (x y z : BitVec w) :
    Standard.majority x y z = x &&& y ||| x &&& z ||| y &&& z := by
  refine BitVec.eq_of_getElem_eq fun i hi => ?_
  simp only [Standard.majority, BitVec.getElem_xor, BitVec.getElem_or, BitVec.getElem_and]
  cases x[i] <;> cases y[i] <;> simp

/-- The four stages, counted as the standard counts them. -/
theorem stage_iff (t : Nat) : (t < 20 ↔ t ≤ 19) ∧ (t < 40 ↔ t ≤ 39) ∧ (t < 60 ↔ t ≤ 59) :=
  ⟨Nat.lt_succ_iff, Nat.lt_succ_iff, Nat.lt_succ_iff⟩

theorem toBitVec_mix (t : Nat) (b c d : UInt32) :
    (mix t b c d).toBitVec =
      Standard.sha1Function t b.toBitVec c.toBitVec d.toBitVec := by
  obtain ⟨hfirst, hsecond, hthird⟩ := stage_iff t
  simp only [mix, Standard.sha1Function, hfirst, hsecond, hthird]
  split_ifs
  · rw [choice_eq_or]
    rfl
  · rfl
  · rw [majority_eq_or]
    rfl
  · rfl

theorem toBitVec_constant (t : Nat) : (constant t).toBitVec = Standard.sha1Constant t := by
  obtain ⟨hfirst, hsecond, hthird⟩ := stage_iff t
  simp only [constant, Standard.sha1Constant, hfirst, hsecond, hthird]
  split_ifs <;> rfl

/-- The next word of a schedule is the one of the standard, if all words before it are. -/
theorem toBitVec_nextWord {block : Bytes} {k : Nat} {words : Vector UInt32 (16 + k)}
    (hwords : ∀ t (ht : t < 16 + k), words[t].toBitVec = Standard.sha1Word block t) :
    (nextWord k words).toBitVec = Standard.sha1Word block (16 + k) := by
  rw [Standard.sha1Word, if_neg (by omega), nextWord,
    toBitVec_rotateLeft _ (by decide) (by decide)]
  simp only [UInt32.toBitVec_xor, hwords, show 16 + k - 3 = k + 13 by omega,
    show 16 + k - 8 = k + 8 by omega, show 16 + k - 14 = k + 2 by omega, Nat.add_sub_cancel_left,
    Nat.add_zero]

theorem toBitVec_ofBlock (block : Buffer 64) {t : Nat} (ht : t < 16) :
    (ofBlock block : Vector UInt32 16)[t].toBitVec = Standard.blockWord block.toList t :=
  (bits_uint32 _).symm.trans (bits_ofBlock (W := UInt32) block ht)

theorem toBitVec_extend (block : Buffer 64) (k : Nat) {t : Nat} (ht : t < 16 + k) :
    (Schedule.extend nextWord (ofBlock block) k)[t].toBitVec =
      Standard.sha1Word block.toList t := by
  refine Schedule.read_extend UInt32.toBitVec (fun t ht => ?_)
    (fun k words hwords => toBitVec_nextWord hwords) k ht
  rw [toBitVec_ofBlock block ht, Standard.sha1Word, if_pos ht]

theorem bits_round (t : Nat) (x : UInt32) (v : Quintet) :
    (round t x v).bits = Standard.sha1Round t x.toBitVec v.bits := by
  simp only [round, Quintet.bits, Standard.sha1Round, UInt32.toBitVec_add, toBitVec_mix,
    toBitVec_constant, toBitVec_rotateLeft _ (show 0 < 5 by decide) (show 5 < 32 by decide),
    toBitVec_rotateLeft _ (show 0 < 30 by decide) (show 30 < 32 by decide)]

/-- **The compression function of SHA-1** is that of the standard. -/
theorem bits_compress (chain : Quintet) (block : Buffer 64) :
    (compress chain block).bits = Standard.sha1 chain.bits block.toList := by
  have hrounds := Standard.read_fold Quintet.bits
    (fun t h v => round t (Schedule.extend nextWord (ofBlock block) 64)[t] v)
    (fun t => Standard.sha1Round t (Standard.sha1Word block.toList t))
    (fun t ht v => by rw [bits_round, toBitVec_extend block 64 ht]) chain
  rw [compress, Standard.sha1, ← hrounds]
  simp only [Quintet.add, Quintet.bits, UInt32.toBitVec_add, BitVec.add_comm]

theorem looksBack_nextWord : Schedule.LooksBack nextWord? nextWord := by
  intro k words back hback
  simp only [nextWord?, nextWord, hback 16 (by decide) (by decide),
    hback 14 (by decide) (by decide), hback 8 (by decide) (by decide),
    hback 3 (by decide) (by decide), Option.bind_eq_bind, Option.bind_some, Option.pure_def,
    show 16 + k - 3 = k + 13 by omega, show 16 + k - 8 = k + 8 by omega,
    show 16 + k - 14 = k + 2 by omega, Nat.add_sub_cancel_left, Nat.add_zero]

/-- **In place**, the compression function is never refused, and the same. -/
theorem compressInPlace?_eq (chain : Quintet) (block : Buffer 64) :
    compressInPlace? chain block = some (compress chain block) := by
  obtain ⟨places, hplaces, hread⟩ :=
    Schedule.exists_inPlace?_eq looksBack_nextWord (ofBlock block) 64
  have hrounds := Schedule.rounds?_eq 80
    (fun t v => do return round t (← places.read? t) v)
    (fun t h v => round t (Schedule.extend nextWord (ofBlock block) 64)[t] v)
    (fun t ht v => by rw [hread t ht]; rfl) chain
  simp only [compressInPlace?, hplaces, Option.bind_eq_bind, Option.bind_some] at hrounds ⊢
  rw [hrounds]
  rfl

end Sha1

/-! ### The three compression functions -/

/-- **The compression functions are those of FIPS 180-4.** For every chaining value and every
block, the words they return have the bits of the intermediate hash value of the standard. Over
a schedule in place they return the same and are never refused: no step looks at a place that
does not exist or has not been written, be it of the schedule or of the constants. -/
theorem compress_eq_standard :
    (∀ (chain : Sha1.Quintet) (block : Buffer 64),
      (Sha1.compress chain block).bits = Standard.sha1 chain.bits block.toList ∧
      Sha1.compressInPlace? chain block = some (Sha1.compress chain block)) ∧
    (∀ (chain : Octet UInt32) (block : Buffer 64),
      (Sha256.family.compress chain block).bits =
        Standard.sha256.hash chain.bits block.toList ∧
      Sha256.family.compressInPlace? chain block = some (Sha256.family.compress chain block)) ∧
    ∀ (chain : Octet UInt64) (block : Buffer 128),
      (Sha512.family.compress chain block).bits =
        Standard.sha512.hash chain.bits block.toList ∧
      Sha512.family.compressInPlace? chain block = some (Sha512.family.compress chain block) := by
  refine ⟨fun chain block => ⟨?_, ?_⟩, fun chain block => ⟨?_, ?_⟩, fun chain block => ⟨?_, ?_⟩⟩
  · exact Sha1.bits_compress chain block
  · exact Sha1.compressInPlace?_eq chain block
  · exact follows_sha256.bits_compress chain block
  · exact Sha256.family.compressInPlace?_eq chain block
  · exact follows_sha512.bits_compress chain block
  · exact Sha512.family.compressInPlace?_eq chain block

end KeyDerivation
