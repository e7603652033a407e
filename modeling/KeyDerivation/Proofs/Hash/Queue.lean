import KeyDerivation.Hash.Session
import KeyDerivation.Proofs.Hash.Padding

/-!
# An unfinished block is a queue of bytes

A `KeyDerivation.PartialBlock` is an array and a number, and most of the array is usually out
of date: neither absorbing nor handing out a block clears what was there before. What it
stands for is much simpler, a byte string that waits for the rest of its block.
`KeyDerivation.queueStep?` says what each action does to such a string, with no array in
sight, and `KeyDerivation.PartialBlock.perform?_eq_queueStep?` that it is what the action
does to the block. Two blocks that differ in left-over bytes only can therefore not be told
apart, now or later (`KeyDerivation.PartialBlock.session?_congr`).

The message under way after a session, `KeyDerivation.messageUnderWay`, is what has been
absorbed since the stream was last finished or wiped.
`KeyDerivation.PartialBlock.session_keeps_every_byte` says where its bytes are: the whole
blocks of it have been handed out, each by the action that supplied its last byte, and the
rest is waiting.
-/

namespace KeyDerivation

variable {n : Nat}

/-! ### Whole blocks and the rest -/

/-- **The rest of a byte string**: what stands behind its last whole block. -/
def remainder (n : Nat) (bytes : Bytes) : Bytes := bytes.drop (bytes.length / n * n)

/-- **There is one way only** to split a byte string into blocks and a rest shorter than a
block. -/
theorem eq_wholeBlocks_of_joined_append {blocks : List (Buffer n)} {rest bytes : Bytes}
    (hrest : rest.length < n) (h : joined blocks ++ rest = bytes) :
    blocks = wholeBlocks n bytes ∧ rest = remainder n bytes := by
  subst h
  have hcount : (joined blocks ++ rest).length / n * n = (joined blocks).length := by
    rw [List.length_append, length_joined, Nat.mul_comm blocks.length,
      Nat.mul_add_div (Nat.zero_lt_of_lt hrest), Nat.div_eq_of_lt hrest, Nat.add_zero, Nat.mul_comm]
  constructor
  · exact (wholeBlocks_joined_append blocks hrest).symm
  · rw [remainder, hcount, List.drop_left]

theorem length_wholeBlocks (bytes : Bytes) : (wholeBlocks n bytes).length = bytes.length / n :=
  List.length_ofFn

/-! ### One action -/

/-- **An action on a queue of bytes**: the blocks it takes out, and the bytes it leaves. -/
def queueStep? (waiting : Bytes) : StreamAction Bytes → Option (List (Buffer n) × Bytes)
  | .absorb data => some (wholeBlocks n (waiting ++ data), remainder n (waiting ++ data))
  | .finish field =>
    if field.length ≤ n then some (wholeBlocks n (padWith n field waiting), []) else none
  | .wipe => some ([], [])

namespace PartialBlock

theorem length_pending_lt (block : PartialBlock n) : block.pending.length < n := by
  rw [length_pending]
  exact block.used_lt

/-- **Absorbing** hands out the whole blocks of the bytes that were pending and the new
ones, and keeps the rest. -/
theorem absorb_eq (block : PartialBlock n) (data : Bytes) :
    (block.absorb data).1 = wholeBlocks n (block.pending ++ data) ∧
      (block.absorb data).2.pending = remainder n (block.pending ++ data) :=
  eq_wholeBlocks_of_joined_append (length_pending_lt _) (joined_absorb_append_pending block data)

/-- Absorbing hands out as many blocks as there are bytes for. -/
theorem length_absorb (block : PartialBlock n) (data : Bytes) :
    (block.absorb data).1.length = (block.used + data.length) / n := by
  rw [(block.absorb_eq data).1, length_wholeBlocks, List.length_append, length_pending]

/-- **Closing** hands out the blocks of the padded bytes. -/
theorem close_eq (block : PartialBlock n) (field : Bytes) (fits : field.length ≤ n) :
    (block.close field fits).1 = wholeBlocks n (padWith n field block.pending) ∧
      (block.close field fits).2.pending = [] := by
  constructor
  · rw [← joined_close block field fits, wholeBlocks_joined (Nat.zero_lt_of_lt block.used_lt)]
  · rfl

/-- What an action shows of a block afterwards: the bytes that are pending, next to what the
action has handed out. -/
def shown {α : Type} : α × PartialBlock n → α × Bytes := Prod.map id pending

/-- **An action on an unfinished block is one on the queue of its pending bytes.** -/
theorem perform?_eq_queueStep? (block : PartialBlock n) (action : StreamAction Bytes) :
    (block.perform? action).map shown = queueStep? block.pending action := by
  cases action with
  | absorb data =>
    obtain ⟨hblocks, hpending⟩ := block.absorb_eq data
    rw [perform?, queueStep?, ← hblocks, ← hpending]
    rfl
  | finish field =>
    rw [perform?, queueStep?, close?]
    by_cases fits : field.length ≤ n
    · obtain ⟨hblocks, hpending⟩ := block.close_eq field fits
      rw [dif_pos fits, if_pos fits, ← hblocks, ← hpending]
      rfl
    · rw [dif_neg fits, if_neg fits]
      rfl
  | wipe => rfl

/-! ### Sessions -/

/-- **A session on an unfinished block is one on the queue of its pending bytes.** -/
theorem session?_eq_queue (block : PartialBlock n) (actions : List (StreamAction Bytes)) :
    (session? perform? block actions).map shown = session? queueStep? block.pending actions := by
  induction actions generalizing block with
  | nil => rfl
  | cons action rest ih =>
    have haction := perform?_eq_queueStep? block action
    rw [session?, session?, ← haction]
    cases block.perform? action with
    | none => rfl
    | some result =>
      obtain ⟨handed, block'⟩ := result
      have hrest := ih block'
      simp only [shown, Option.map_some, Prod.map_apply, id_eq, Option.bind_eq_bind,
        Option.bind_some] at hrest ⊢
      rw [← hrest]
      cases session? perform? block' rest <;> rfl

/-- **What is left over in the array never matters**: two blocks with the same bytes pending
hand out the same blocks, action by action, and refuse the same actions. -/
theorem session?_congr {block other : PartialBlock n} (h : block.pending = other.pending)
    (actions : List (StreamAction Bytes)) :
    (session? perform? block actions).map shown = (session? perform? other actions).map shown := by
  rw [session?_eq_queue, session?_eq_queue, h]

end PartialBlock

/-! ### The message under way -/

/-- The message under way after one more action. -/
def StreamAction.extend {ε : Type} (message : Bytes) : StreamAction ε → Bytes
  | absorb data => message ++ data
  | finish _ => []
  | wipe => []

/-- **The message under way** after a session: all that was absorbed since the stream was
last finished or wiped, or since the session began. -/
def messageUnderWay {ε : Type} (actions : List (StreamAction ε)) : Bytes :=
  actions.foldl StreamAction.extend []

/-- The blocks of the message under way after one more action, which has handed out
some. -/
def StreamAction.collect {ε : Type} (blocks : List (Buffer n)) :
    StreamAction ε × List (Buffer n) → List (Buffer n)
  | (absorb _, handed) => blocks ++ handed
  | (finish _, _) => []
  | (wipe, _) => []

/-- **The blocks under way** after a session: all that absorbing has handed out since the
stream was last finished or wiped, or since the session began. -/
def blocksUnderWay {ε : Type} (log : List (StreamAction ε × List (Buffer n))) :
    List (Buffer n) :=
  log.foldl StreamAction.collect []

theorem messageUnderWay_append_singleton {ε : Type} (actions : List (StreamAction ε))
    (action : StreamAction ε) :
    messageUnderWay (actions ++ [action]) = action.extend (messageUnderWay actions) := by
  rw [messageUnderWay, List.foldl_append]
  rfl

theorem blocksUnderWay_append_singleton {ε : Type}
    (log : List (StreamAction ε × List (Buffer n))) (entry : StreamAction ε × List (Buffer n)) :
    blocksUnderWay (log ++ [entry]) = StreamAction.collect (blocksUnderWay log) entry := by
  rw [blocksUnderWay, List.foldl_append]
  rfl

namespace PartialBlock

/-- **After a session** the blocks under way and the bytes pending make up the message
under way. -/
structure Follows (block : PartialBlock n) (actions : List (StreamAction Bytes))
    (handed : List (List (Buffer n))) : Prop where
  length_eq : handed.length = actions.length
  bytes_eq : joined (blocksUnderWay (actions.zip handed)) ++ block.pending =
    messageUnderWay actions

theorem follows_empty (pos : 0 < n) : (empty pos).Follows [] [] := ⟨rfl, rfl⟩

/-- **A step**: an action that is not refused keeps track of the message under way. -/
theorem Follows.perform? {block : PartialBlock n} {actions : List (StreamAction Bytes)}
    {handed : List (List (Buffer n))} (h : block.Follows actions handed)
    (action : StreamAction Bytes) (hfits : ∀ field, action = .finish field → field.length ≤ n) :
    ∃ more block', block.perform? action = some (more, block') ∧
      block'.Follows (actions ++ [action]) (handed ++ [more]) := by
  -- The log grows by the action and what it hands out.
  have hlog : ∀ more, (actions ++ [action]).zip (handed ++ [more]) =
      actions.zip handed ++ [(action, more)] := fun more => List.zip_append h.length_eq.symm
  have hlength : ∀ more, (handed ++ [more]).length = (actions ++ [action]).length := by
    intro more
    rw [List.length_append, List.length_append, h.length_eq]
    rfl
  cases action with
  | absorb data =>
    refine ⟨(block.absorb data).1, (block.absorb data).2, rfl, hlength _, ?_⟩
    rw [hlog, blocksUnderWay_append_singleton, messageUnderWay_append_singleton,
      StreamAction.collect, StreamAction.extend, joined_append, List.append_assoc,
      joined_absorb_append_pending, ← List.append_assoc, h.bytes_eq]
  | finish field =>
    refine ⟨_, _, dif_pos (hfits field rfl), hlength _, ?_⟩
    rw [hlog, blocksUnderWay_append_singleton, messageUnderWay_append_singleton]
    rfl
  | wipe =>
    refine ⟨_, _, rfl, hlength _, ?_⟩
    rw [hlog, blocksUnderWay_append_singleton, messageUnderWay_append_singleton]
    rfl

/-- **Every byte absorbed is handed out once, in order and at once, or is still pending.**

From the empty block, no session is refused in which the length fields fit in a block.
There is always room for one more byte, and what has been handed out are blocks of `n`
bytes. The blocks under way and the pending bytes make up the message under way; as this
holds after every action, the blocks are the whole blocks of what has been absorbed by then,
and absorbing a piece hands out as many as its bytes complete.

That an action reads and writes existing places of the array only is part of its definition.
What stands in the array behind the pending bytes makes no difference: two blocks with the
same bytes pending hand out the same, refuse the same, and have the same bytes pending
afterwards, whatever is done to them. -/
theorem session_keeps_every_byte (pos : 0 < n) :
    (∀ actions : List (StreamAction Bytes),
      (∀ field, .finish field ∈ actions → field.length ≤ n) →
      ∃ handed final, session? PartialBlock.perform? (empty pos) actions = some (handed, final) ∧
        final.used < n ∧ final.pending.length = final.used ∧
        (∀ blocks ∈ handed, ∀ block ∈ blocks, block.toList.length = n) ∧
        handed.length = actions.length ∧
        joined (blocksUnderWay (actions.zip handed)) ++ final.pending =
          messageUnderWay actions ∧
        blocksUnderWay (actions.zip handed) = wholeBlocks n (messageUnderWay actions) ∧
        ∀ data, (final.absorb data).1.length = (final.pending.length + data.length) / n) ∧
    ∀ (block other : PartialBlock n), block.pending = other.pending →
      ∀ actions, (session? PartialBlock.perform? block actions).map shown =
        (session? PartialBlock.perform? other actions).map shown := by
  constructor
  · intro actions hfits
    obtain ⟨handed, final, hrun, hfollows⟩ := session?_induction
      (P := fun actions handed block => Follows block actions handed)
      (follows_empty pos) (fun _ _ _ action h hfits => h.perform? action hfits) actions
      (fun action haction field heq => hfits field (heq ▸ haction))
    have hblocks := (eq_wholeBlocks_of_joined_append final.length_pending_lt hfollows.bytes_eq).1
    refine ⟨handed, final, hrun, final.used_lt, final.length_pending, ?_, hfollows.length_eq,
      hfollows.bytes_eq, hblocks, ?_⟩
    · exact fun _ _ _ _ => Vector.length_toList
    · intro data
      rw [length_absorb, length_pending]
  · exact fun block other h actions => session?_congr h actions

/-- Blocks of four bytes: the second piece completes two blocks, a length field ends the
first message, and the second one has filled a block exactly when it is wiped. Two arrays
that differ behind their only pending byte are told apart by nothing. -/
theorem session_keeps_every_byte_four :
    let actions : List (StreamAction Bytes) :=
      [.absorb [1, 2, 3], .absorb [4, 5, 6, 7, 8, 9], .finish [0x10, 0x20],
        .absorb [1, 2, 3, 4], .wipe, .absorb [5, 6, 7], .absorb [8, 9]]
    let block : PartialBlock 4 := ⟨#v[1, 0, 0, 0], 1, by decide⟩
    let other : PartialBlock 4 := ⟨#v[1, 7, 8, 9], 1, by decide⟩
    (0 < 4 ∧ (∀ field, .finish field ∈ actions → field.length ≤ 4) ∧
      block.pending = other.pending) ∧
    (∃ handed final,
      session? PartialBlock.perform? (empty (show 0 < 4 by decide)) actions =
          some (handed, final) ∧
        final.used < 4 ∧ final.pending.length = final.used ∧
        (∀ blocks ∈ handed, ∀ block ∈ blocks, block.toList.length = 4) ∧
        handed.length = 7 ∧
        joined (blocksUnderWay (actions.zip handed)) ++ final.pending = [5, 6, 7, 8, 9] ∧
        blocksUnderWay (actions.zip handed) = wholeBlocks 4 [5, 6, 7, 8, 9] ∧
        ∀ data, (final.absorb data).1.length = (final.pending.length + data.length) / 4) ∧
    ∀ actions, (session? PartialBlock.perform? block actions).map shown =
      (session? PartialBlock.perform? other actions).map shown := by
  intro actions block other
  have hfits : ∀ field, StreamAction.finish field ∈ actions → field.length ≤ 4 := by
    simp [actions]
  have hpending : block.pending = other.pending := rfl
  exact ⟨⟨by decide, hfits, hpending⟩, (session_keeps_every_byte (by decide)).1 actions hfits,
    (session_keeps_every_byte (by decide)).2 block other hpending⟩

end PartialBlock

end KeyDerivation
