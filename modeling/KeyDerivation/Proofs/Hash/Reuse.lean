import KeyDerivation.Hash.Sha1
import KeyDerivation.Hash.Sha256
import KeyDerivation.Hash.Sha512
import KeyDerivation.Proofs.Hash.Queue
import KeyDerivation.Proofs.Hash.Streaming

/-!
# One stream for many messages

A stream that has been finished or wiped is used for the next message. Nothing of the
earlier ones must show in it, but the two ways to end a message are not the same: finishing
goes back to the initial chaining value, and wiping leaves a chaining value of zeros.

So the state of a stream is known from two things, whatever was done to it before: the
message under way (`KeyDerivation.messageUnderWay`), and the chaining value that this message
began with (`KeyDerivation.IteratedHash.originUnderWay`).
`KeyDerivation.IteratedHash.Stream.BelongsTo` says how, part by part. An action keeps it
(`KeyDerivation.IteratedHash.Stream.Follows.perform?`), hence so does a session, and a
session that hashes one message after the other writes the digests that each of them has on
its own (`KeyDerivation.IteratedHash.session?_hashing`).
-/

namespace KeyDerivation

namespace IteratedHash

variable {hash : IteratedHash}

namespace Stream

/-! ### The state that belongs to a message -/

/-- **The state that belongs to a message** begun with the chaining value `origin`. Chaining
value, pending bytes and count are functions of the message, and nothing else that a stream
keeps has a say in what it does. -/
structure BelongsTo (stream : Stream hash) (origin : hash.Chain) (message : Bytes) : Prop where
  chain_eq : stream.chain =
    (wholeBlocks hash.blockLength message).foldl hash.compress origin
  pending_eq : stream.tail.pending = remainder hash.blockLength message
  count_eq : stream.count = BitVec.ofNat _ message.length

theorem HasAbsorbed.belongsTo {stream : Stream hash} {origin : hash.Chain} {message : Bytes}
    (h : stream.HasAbsorbed origin message) : stream.BelongsTo origin message := by
  obtain ⟨⟨blocks, hchain, hbytes⟩, hcount⟩ := h
  obtain ⟨rfl, hpending⟩ :=
    eq_wholeBlocks_of_joined_append stream.tail.length_pending_lt hbytes
  exact ⟨hchain, hpending, hcount⟩

/-- A wiped stream has absorbed nothing, from a chaining value of zeros on. -/
theorem hasAbsorbed_wipe (stream : Stream hash) : stream.wipe.HasAbsorbed hash.blank [] :=
  ⟨⟨[], rfl, rfl⟩, rfl⟩

/-- **Finishing with a buffer that is long enough** writes the digest to its front, and the
stream afterwards is the one that has absorbed nothing. -/
theorem finish?_of_le (stream : Stream hash) {m : Nat} (out : Buffer m)
    (hwide : hash.digestLength ≤ m) :
    ∃ written, stream.finish? out = some (written, start) ∧
      written.toList = stream.digest.toList ++ out.toList.drop hash.digestLength := by
  have hfront := Buffer.map_toList_writeFront? out stream.digest.toList
  rw [Vector.length_toList, if_pos hwide] at hfront
  obtain ⟨written, hwrite, hbytes⟩ := Option.map_eq_some_iff.mp hfront
  exact ⟨written, by rw [finish?_eq, hwrite]; rfl, hbytes⟩

end Stream

/-! ### Sessions -/

variable (hash) in
/-- The chaining value of the message under way after one more action. -/
def originAfter {ε : Type} (origin : hash.Chain) : StreamAction ε → hash.Chain
  | .absorb _ => origin
  | .finish _ => hash.initial
  | .wipe => hash.blank

variable (hash) in
/-- **The chaining value that the message under way began with**: zeros if the stream was
wiped since it was last finished, and the initial one if not. -/
def originUnderWay {ε : Type} (actions : List (StreamAction ε)) : hash.Chain :=
  actions.foldl hash.originAfter hash.initial

theorem originUnderWay_append_singleton {ε : Type} (actions : List (StreamAction ε))
    (action : StreamAction ε) :
    hash.originUnderWay (actions ++ [action]) =
      hash.originAfter (hash.originUnderWay actions) action := by
  rw [originUnderWay, List.foldl_append]
  rfl

namespace Stream

/-- **After a session** a stream has absorbed the message under way, from the chaining value
that this message began with. -/
def Follows (stream : Stream hash) (actions : List (StreamAction ((m : Nat) × Buffer m))) :
    Prop :=
  stream.HasAbsorbed (hash.originUnderWay actions) (messageUnderWay actions)

theorem follows_start : (start : Stream hash).Follows [] := hasAbsorbed_start

/-- **A step**: an action that is not refused keeps track of the message under way and of
the chaining value it began with. -/
theorem Follows.perform? {stream : Stream hash}
    {actions : List (StreamAction ((m : Nat) × Buffer m))} (h : stream.Follows actions)
    (action : StreamAction ((m : Nat) × Buffer m))
    (hwide : ∀ out, action = .finish out → hash.digestLength ≤ out.1) :
    ∃ more stream', stream.perform? action = some (more, stream') ∧
      stream'.Follows (actions ++ [action]) := by
  simp only [Follows, originUnderWay_append_singleton, messageUnderWay_append_singleton]
  cases action with
  | absorb data => exact ⟨[], stream.absorb data, rfl, HasAbsorbed.absorb h data⟩
  | finish out =>
    obtain ⟨written, hfinish, -⟩ := stream.finish?_of_le out.2 (hwide out rfl)
    exact ⟨[written.toList], start, by rw [Stream.perform?, hfinish]; rfl, hasAbsorbed_start⟩
  | wipe => exact ⟨[], stream.wipe, rfl, hasAbsorbed_wipe stream⟩

/-- **A run**: no session is refused whose buffers are long enough, and the stream has
absorbed the message under way. -/
theorem session?_follows (actions : List (StreamAction ((m : Nat) × Buffer m)))
    (hwide : ∀ out, .finish out ∈ actions → hash.digestLength ≤ out.1) :
    ∃ handed stream, session? Stream.perform? (start : Stream hash) actions =
      some (handed, stream) ∧ stream.Follows actions :=
  session?_induction (P := fun actions _ stream => Follows stream actions) follows_start
    (fun _ _ _ action h hwide => h.perform? action hwide) actions
    fun _ haction out heq => hwide out (heq ▸ haction)

end Stream

/-! ### One message after the other -/

/-- The actions that hash a message in pieces and write its digest to a buffer. -/
def hashing (pieces : List Bytes) (out : (m : Nat) × Buffer m) :
    List (StreamAction ((m : Nat) × Buffer m)) :=
  pieces.map .absorb ++ [.finish out]

/-- Absorbing pieces hands nothing out. -/
theorem session?_map_absorb (stream : Stream hash) (pieces : List Bytes) :
    session? Stream.perform? stream (pieces.map .absorb) =
      some (pieces.map fun _ => [], pieces.foldl Stream.absorb stream) := by
  induction pieces generalizing stream with
  | nil => rfl
  | cons piece pieces ih =>
    have hrest := ih (stream.absorb piece)
    simp [session?, Stream.perform?, hrest]

/-- **Hashing a message** on a stream that has absorbed nothing hands out the buffer with
the digest at its front, and the stream has absorbed nothing again. -/
theorem session?_hashing_one (pieces : List Bytes) (out : (m : Nat) × Buffer m)
    (hwide : hash.digestLength ≤ out.1) :
    ∃ handed, session? Stream.perform? (Stream.start : Stream hash) (hashing pieces out) =
        some (handed, Stream.start) ∧
      handed.flatten =
        [(hash.value pieces.flatten).toList ++ out.2.toList.drop hash.digestLength] := by
  obtain ⟨written, hfinish, hbytes⟩ :=
    (pieces.foldl Stream.absorb (Stream.start : Stream hash)).finish?_of_le out.2 hwide
  refine ⟨(pieces.map fun _ => []) ++ [[written.toList]], ?_, ?_⟩
  · rw [hashing, session?_append (session?_map_absorb _ pieces), session?, Stream.perform?, hfinish]
    rfl
  · rw [List.flatten_append, List.flatten_eq_nil_iff.mpr (by simp), List.nil_append,
      List.flatten_singleton, hbytes, digest_foldl_absorb, value_eq_iterated]

/-- **Hashing one message after the other** on one stream hands out the digests that the
messages have on their own. -/
theorem session?_hashing (jobs : List (List Bytes × (m : Nat) × Buffer m))
    (hwide : ∀ job ∈ jobs, hash.digestLength ≤ job.2.1) :
    ∃ handed, session? Stream.perform? (Stream.start : Stream hash)
        (jobs.flatMap fun job => hashing job.1 job.2) = some (handed, Stream.start) ∧
      handed.flatten = jobs.map fun job =>
        (hash.value job.1.flatten).toList ++ job.2.2.toList.drop hash.digestLength := by
  induction jobs with
  | nil => exact ⟨[], rfl, rfl⟩
  | cons job rest ih =>
    obtain ⟨first, hfirst, hdigest⟩ :=
      session?_hashing_one job.1 job.2 (hwide job List.mem_cons_self)
    obtain ⟨later, hlater, hdigests⟩ := ih fun job' h => hwide job' (List.mem_cons_of_mem _ h)
    refine ⟨first ++ later, ?_, ?_⟩
    · rw [List.flatMap_cons, session?_append hfirst, hlater]
      rfl
    · rw [List.flatten_append, hdigest, hdigests]
      rfl

/-- **A stream can be used again and again.**

After any session whose buffers are long enough for a digest, the state of the stream is the
one that belongs to the message under way: to the bytes absorbed since the stream was last
finished or wiped, or since it was new. Finishing it now writes the hash of that message,
padded with its own length, from the chaining value it began with. That is the initial one
after the stream was new or finished, and zeros after it was wiped. And it leaves the stream
as it was when it was new. So messages that are hashed one after the other have the digests
they have on their own.

The three hash functions in use are among those it holds for. -/
theorem stream_reuse :
    (sha1.blank = ⟨0, 0, 0, 0, 0⟩ ∧ sha256.blank = .replicate (0 : UInt32) ∧
      sha512.blank = .replicate (0 : UInt64)) ∧
    ∀ hash : IteratedHash,
      (∀ actions : List (StreamAction ((m : Nat) × Buffer m)),
        (∀ out, .finish out ∈ actions → hash.digestLength ≤ out.1) →
        ∃ handed stream,
          session? Stream.perform? (Stream.start : Stream hash) actions = some (handed, stream) ∧
          let origin := hash.originUnderWay actions
          let message := messageUnderWay actions
          stream.BelongsTo origin message ∧
          ∃ padded, IsPadded hash.blockLength hash.lengthWidth message padded ∧
            let digest := hash.spell
              ((wholeBlocks hash.blockLength padded).foldl hash.compress origin)
            stream.digest = digest ∧
            ∀ (m : Nat) (out : Buffer m), hash.digestLength ≤ m →
              ∃ written, stream.finish? out = some (written, Stream.start) ∧
                written.toList = digest.toList ++ out.toList.drop hash.digestLength) ∧
      ∀ jobs : List (List Bytes × (m : Nat) × Buffer m),
        (∀ job ∈ jobs, hash.digestLength ≤ job.2.1) →
        ∃ handed, session? Stream.perform? (Stream.start : Stream hash)
            (jobs.flatMap fun job => hashing job.1 job.2) = some (handed, Stream.start) ∧
          handed.flatten = jobs.map fun job =>
            (hash.value job.1.flatten).toList ++ job.2.2.toList.drop hash.digestLength := by
  refine ⟨⟨rfl, rfl, rfl⟩, fun hash => ⟨fun actions hwide => ?_, session?_hashing⟩⟩
  obtain ⟨handed, stream, hrun, hfollows⟩ := Stream.session?_follows actions hwide
  have hdigest : stream.digest = hash.iterated _ _ := hfollows.digest_eq
  refine ⟨handed, stream, hrun, hfollows.belongsTo, hash.padded _,
    isPadded_padWith hash.blockLength_pos _ _, hdigest, fun m out hlong => ?_⟩
  obtain ⟨written, hfinish, hbytes⟩ := stream.finish?_of_le out hlong
  exact ⟨written, hfinish, by rw [hbytes, hdigest, iterated]⟩

/-- SHA-256: a message is finished, the next one is given up by wiping the stream, and a
third one is under way. Two more messages are hashed one after the other, the second of them
empty. -/
theorem stream_reuse_sha256 :
    let out : (m : Nat) × Buffer m := ⟨33, Vector.replicate 33 0xee⟩
    let actions : List (StreamAction ((m : Nat) × Buffer m)) :=
      [.absorb [0x61], .finish out, .absorb [0x62, 0x63], .wipe, .absorb [0x64], .absorb [0x65]]
    let jobs : List (List Bytes × (m : Nat) × Buffer m) :=
      [([[0x61], [0x62, 0x63]], out), ([], out)]
    ((∀ out, .finish out ∈ actions → sha256.digestLength ≤ out.1) ∧
      ∀ job ∈ jobs, sha256.digestLength ≤ job.2.1) ∧
    (∃ handed stream,
      session? Stream.perform? (Stream.start : Stream sha256) actions = some (handed, stream) ∧
      stream.BelongsTo (.replicate (0 : UInt32)) [0x64, 0x65] ∧
      ∃ padded, IsPadded 64 8 [0x64, 0x65] padded ∧
        let digest := sha256.spell
          ((wholeBlocks 64 padded).foldl sha256.compress (.replicate (0 : UInt32)))
        stream.digest = digest ∧
        ∀ (m : Nat) (out : Buffer m), 32 ≤ m →
          ∃ written, stream.finish? out = some (written, Stream.start) ∧
            written.toList = digest.toList ++ out.toList.drop 32) ∧
    ∃ handed, session? Stream.perform? (Stream.start : Stream sha256)
        (jobs.flatMap fun job => hashing job.1 job.2) = some (handed, Stream.start) ∧
      handed.flatten = [(sha256.value [0x61, 0x62, 0x63]).toList ++ [0xee],
        (sha256.value []).toList ++ [0xee]] := by
  intro out actions jobs
  have hlong : sha256.digestLength ≤ out.1 := by decide
  have hactions : ∀ out, .finish out ∈ actions → sha256.digestLength ≤ out.1 := by
    intro out' h
    obtain rfl : out' = out := by simpa [actions] using h
    exact hlong
  have hjobs : ∀ job ∈ jobs, sha256.digestLength ≤ job.2.1 := by
    intro job h
    obtain rfl | rfl : job = ([[0x61], [0x62, 0x63]], out) ∨ job = ([], out) := by
      simpa [jobs] using h
    · exact hlong
    · exact hlong
  exact ⟨⟨hactions, hjobs⟩, (stream_reuse.2 sha256).1 actions hactions,
    (stream_reuse.2 sha256).2 jobs hjobs⟩

end IteratedHash

end KeyDerivation
