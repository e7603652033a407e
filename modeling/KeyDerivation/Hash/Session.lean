import KeyDerivation.Hash.Iterated

/-!
# Sessions: one stream for many messages

A stream need not be thrown away after a message. Finishing it makes it ready for the
next one, and wiping it makes it forget what it has absorbed. A **session** is any
sequence of such actions on one and the same stream, and what it hands out is listed
action by action.

The two things that absorb a stream of bytes are used this way:

* a `KeyDerivation.PartialBlock` hands out the blocks that an action completes, and it is
  finished with a length field;
* a `KeyDerivation.IteratedHash.Stream` hands out nothing until it is finished, and then
  the buffer it has written the digest to.

Either may refuse to be finished: a length field may be longer than a block, and a buffer
shorter than a digest. A session in which that happens has no result.
-/

namespace KeyDerivation

/-- **An action on a stream**. Finishing it takes a further thing of type `ε`. -/
inductive StreamAction (ε : Type)
  /-- Absorb a piece of the message. -/
  | absorb (data : Bytes)
  /-- End the message. -/
  | finish (ending : ε)
  /-- Forget the message. -/
  | wipe

/-- **A session**: the actions are performed one after the other. What each of them hands
out is listed; a refused action ends the session without a result. -/
def session? {σ α β : Type} (perform? : σ → α → Option (β × σ)) :
    σ → List α → Option (List β × σ)
  | state, [] => some ([], state)
  | state, action :: rest => do
    let (handed, state) ← perform? state action
    let (later, state) ← session? perform? state rest
    return (handed :: later, state)

/-- **What holds at the start of a session and survives every action holds in the end**,
and no action is refused. What is said may refer to the actions performed so far and to
what they have handed out. -/
theorem session?_induction {σ α β : Type} {perform? : σ → α → Option (β × σ)}
    {permitted : α → Prop} {P : List α → List β → σ → Prop} {start : σ} (hstart : P [] [] start)
    (hstep : ∀ done handed state action, P done handed state → permitted action →
      ∃ more state', perform? state action = some (more, state') ∧
        P (done ++ [action]) (handed ++ [more]) state')
    (actions : List α) (hpermitted : ∀ action ∈ actions, permitted action) :
    ∃ handed final, session? perform? start actions = some (handed, final) ∧
      P actions handed final := by
  -- The induction is on the actions to come, for any that were performed before.
  suffices h : ∀ done handed state, P done handed state → ∃ later final,
      session? perform? state actions = some (later, final) ∧
        P (done ++ actions) (handed ++ later) final from h [] [] start hstart
  induction actions with
  | nil => exact fun done handed state h => ⟨[], state, rfl, by simpa using h⟩
  | cons action rest ih =>
    intro done handed state h
    obtain ⟨more, state', hperform, hstate⟩ :=
      hstep done handed state action h (hpermitted action List.mem_cons_self)
    obtain ⟨later, final, hrest, hfinal⟩ :=
      ih (fun a ha => hpermitted a (List.mem_cons_of_mem _ ha)) _ _ _ hstate
    refine ⟨more :: later, final, ?_, by simpa using hfinal⟩
    simp [session?, hperform, hrest]

/-- A session in two parts: the second one begins where the first one has ended. -/
theorem session?_append {σ α β : Type} {perform? : σ → α → Option (β × σ)} {state state' : σ}
    {actions : List α} {handed : List β}
    (h : session? perform? state actions = some (handed, state')) (later : List α) :
    session? perform? state (actions ++ later) =
      (session? perform? state' later).map (Prod.map (handed ++ ·) id) := by
  induction actions generalizing state handed with
  | nil =>
    obtain ⟨rfl, rfl⟩ : [] = handed ∧ state = state' := by simpa [session?] using h
    rw [List.nil_append]
    cases session? perform? state later <;> rfl
  | cons action rest ih =>
    -- The first action hands out the head of the list, the rest of the first part the tail.
    simp only [session?, Option.bind_eq_bind, Option.bind_eq_some_iff, Option.pure_def,
      Option.some.injEq, Prod.mk.injEq] at h
    obtain ⟨⟨more, state₁⟩, haction, ⟨tail, state₂⟩, hrest, rfl, rfl⟩ := h
    rw [List.cons_append, session?, haction]
    simp only [Option.bind_eq_bind, Option.bind_some, ih hrest]
    cases session? perform? state₂ later <;> rfl

namespace PartialBlock

variable {n : Nat}

/-- **An action on an unfinished block**, with the blocks it hands out. -/
def perform? (block : PartialBlock n) :
    StreamAction Bytes → Option (List (Buffer n) × PartialBlock n)
  | .absorb data => some (block.absorb data)
  | .finish field => block.close? field
  | .wipe => some ([], block.wipe)

end PartialBlock

namespace IteratedHash.Stream

variable {hash : IteratedHash}

/-- **An action on a stream**, with the buffers it hands out: one if it finishes the stream,
and none if it does not. -/
def perform? (stream : Stream hash) :
    StreamAction ((m : Nat) × Buffer m) → Option (List Bytes × Stream hash)
  | .absorb data => some ([], stream.absorb data)
  | .finish ⟨_, out⟩ =>
    (stream.finish? out).map fun (written, stream) => ([written.toList], stream)
  | .wipe => some ([], stream.wipe)

end IteratedHash.Stream

end KeyDerivation
