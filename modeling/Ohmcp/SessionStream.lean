import Ohmcp.FrameStream
import Ohmcp.ExactCodec

/-! A message session read as a byte stream: blocks are received whole and read in pieces, and a read
of no bytes means the end of the stream to the frame reader above. -/

open Transition

namespace Ohmcp

/-! ### The frame reader over any reads -/

namespace FrameReader

variable {reader : FrameReader} {chunks : List Bytes}

/-- What asking over and over returns: these frames, and then a result without a frame, or none. -/
def Yields (reader : FrameReader) (reads : List Bytes) :
    List Frame → Option (Except CoreError (Option Frame)) → Prop
  | [], last => (nextFrame reader reads).1 = last ∧ ∀ frame, last ≠ some (.ok (some frame))
  | frame :: frames, last => ∃ after left,
      nextFrame reader reads = (some (.ok (some frame)), after, left) ∧
        Yields after left frames last

/-- The reader that has read these chunks already. -/
def fed (reader : FrameReader) (chunks : List Bytes) : FrameReader :=
  ⟨reader.buf ++ chunks.flatten, reader.bytesRead + chunks.flatten.length⟩

@[simp] theorem fed_nil : reader.fed [] = reader := by
  rw [fed, List.flatten_nil, List.append_nil]
  rfl

theorem fed_cons (chunk : Bytes) : reader.fed (chunk :: chunks) =
    fed ⟨reader.buf ++ chunk, reader.bytesRead + chunk.length⟩ chunks := by
  simp only [fed, List.flatten_cons, List.append_assoc, List.length_append, Nat.add_assoc]

/-- An outcome of decoding other than the wait. -/
theorem nextFrame_decoded {decoded : Except CoreError (Option Frame)} {rest : Bytes}
    (hdecode : Frame.decode reader.buf = (decoded, rest)) (hresult : decoded ≠ .ok none)
    (reads : List Bytes) :
    nextFrame reader reads = (some decoded, { reader with buf := rest }, reads) := by
  rw [nextFrame.eq_def, hdecode]
  cases decoded with
  | error e => rfl
  | ok found =>
      cases found with
      | none => exact absurd rfl hresult
      | some frame => rfl

theorem nextFrame_pull (hwait : (Frame.decode reader.buf).1 = .ok none) {chunk : Bytes}
    (hchunk : chunk ≠ []) (reads : List Bytes) : nextFrame reader (chunk :: reads) =
      nextFrame ⟨reader.buf ++ chunk, reader.bytesRead + chunk.length⟩ reads := by
  rw [nextFrame.eq_def, show Frame.decode reader.buf = (.ok none, (Frame.decode reader.buf).2) from
    Prod.ext hwait rfl]
  exact if_neg hchunk

/-- However the bytes are cut into reads, the next result is that of the reader that has read them
all: it leaves some of the chunks to be read, or reads on. -/
theorem nextFrame_fed (reader : FrameReader) (more : List Bytes)
    (hchunks : ∀ chunk ∈ chunks, chunk ≠ []) :
    nextFrame reader (chunks ++ more) = nextFrame (reader.fed chunks) more ∨
      ∃ decoded after left, (∀ chunk ∈ left, chunk ≠ []) ∧
        nextFrame reader (chunks ++ more) = (some decoded, after, left ++ more) ∧
        nextFrame (reader.fed chunks) more = (some decoded, after.fed left, more) := by
  induction chunks generalizing reader with
  | nil => exact Or.inl (by rw [fed_nil, List.nil_append])
  | cons chunk chunks ih =>
      obtain ⟨hchunk, hrest⟩ := List.forall_mem_cons.mp hchunks
      by_cases hwait : (Frame.decode reader.buf).1 = .ok none
      · rw [List.cons_append, nextFrame_pull hwait hchunk, fed_cons]
        exact ih _ hrest
      · refine Or.inr ⟨(Frame.decode reader.buf).1,
          { reader with buf := (Frame.decode reader.buf).2 }, chunk :: chunks, hchunks,
          nextFrame_decoded rfl hwait _, ?_⟩
        have hdecode := Frame.decode_append hwait (chunk :: chunks).flatten
        exact nextFrame_decoded hdecode hwait more

theorem yields_fed (reader : FrameReader) (more : List Bytes)
    (hchunks : ∀ chunk ∈ chunks, chunk ≠ []) (frames : List Frame)
    (last : Option (Except CoreError (Option Frame))) :
    Yields reader (chunks ++ more) frames last ↔ Yields (reader.fed chunks) more frames last := by
  induction frames generalizing reader chunks with
  | nil =>
      have hfst : (nextFrame reader (chunks ++ more)).1 =
          (nextFrame (reader.fed chunks) more).1 := by
        rcases nextFrame_fed reader more hchunks with heq | ⟨_, _, _, _, hcut, hwhole⟩
        · rw [heq]
        · rw [hcut, hwhole]
      rw [Yields, Yields, hfst]
  | cons frame frames ih =>
      rw [Yields, Yields]
      rcases nextFrame_fed reader more hchunks with heq | ⟨decoded, after, left, hleft, hcut, hwhole⟩
      · rw [heq]
      · rw [hcut, hwhole]
        constructor
        · rintro ⟨_, _, heq, hyields⟩
          cases heq
          exact ⟨_, _, rfl, (ih after hleft).mp hyields⟩
        · rintro ⟨_, _, heq, hyields⟩
          cases heq
          exact ⟨_, _, rfl, (ih after hleft).mpr hyields⟩

/-- All the bytes as one read, if there are any. -/
def joined (bytes : Bytes) : List Bytes := if bytes = [] then [] else [bytes]

/-- The same frames as over the bytes in one piece. -/
theorem yields_joined (reader : FrameReader) (more : List Bytes)
    (hchunks : ∀ chunk ∈ chunks, chunk ≠ []) (frames : List Frame)
    (last : Option (Except CoreError (Option Frame))) :
    Yields reader (chunks ++ more) frames last ↔
      Yields reader (joined chunks.flatten ++ more) frames last := by
  have hflatten : (joined chunks.flatten).flatten = chunks.flatten := by
    unfold joined
    split_ifs with h
    · exact h.symm
    · exact List.flatten_singleton
  have hjoined : ∀ chunk ∈ joined chunks.flatten, chunk ≠ [] := by
    unfold joined
    split_ifs with h
    · exact fun _ hmem => absurd hmem List.not_mem_nil
    · exact fun chunk hmem => List.mem_singleton.mp hmem ▸ h
  rw [yields_fed reader more hchunks, yields_fed reader more hjoined, fed, fed, hflatten]

end FrameReader

/-! ### The session and the stream over it -/

inductive Poll (α : Type) where
  | pending
  | ready (value : α)
  deriving DecidableEq

/-- The receiving end: the blocks that were sent and not received, and whether the peer is gone. -/
structure SimSession where
  blocks : List Bytes
  closed : Bool

def SimSession.pollRecvBytes (session : SimSession) : Poll (Option Bytes) × SimSession :=
  match session.blocks with
  | chunk :: blocks => (.ready (some chunk), { session with blocks := blocks })
  | [] => (if session.closed then .ready none else .pending, session)

structure SessionStream where
  session : SimSession
  pending : Bytes
  pos : Nat

namespace SessionStream

def new (session : SimSession) : SessionStream := ⟨session, [], 0⟩

/-- Copies what it can of the block to a buffer with so much room. -/
def putSlice (stream : SessionStream) (remaining : Nat) : Bytes × SessionStream :=
  let n := min (stream.pending.length - stream.pos) remaining
  ((stream.pending.drop stream.pos).take n, { stream with pos := stream.pos + n })

/-- The bytes a read puts into a buffer with so much room. -/
def pollRead (stream : SessionStream) (remaining : Nat) : Poll Bytes × SessionStream :=
  if stream.pending.length ≤ stream.pos then
    match stream.session.pollRecvBytes with
    | (.ready (some chunk), session) =>
        let (bytes, stream) := putSlice ⟨session, chunk, 0⟩ remaining
        (.ready bytes, stream)
    | (.ready none, session) => (.ready [], { stream with session := session })
    | (.pending, session) => (.pending, { stream with session := session })
  else
    let (bytes, stream) := stream.putSlice remaining
    (.ready bytes, stream)

/-- The bytes of the block that are not read yet. -/
def left (stream : SessionStream) : Bytes := stream.pending.drop stream.pos

section PollRead

variable {stream : SessionStream} {remaining : Nat}

theorem left_eq_nil_iff : stream.left = [] ↔ stream.pending.length ≤ stream.pos :=
  List.drop_eq_nil_iff

theorem putSlice_append (stream : SessionStream) (remaining : Nat) :
    (stream.putSlice remaining).1 ++ (stream.putSlice remaining).2.left = stream.left := by
  simp only [putSlice, left, ← List.drop_drop]
  exact List.take_append_drop _ _

theorem putSlice_eq_nil_iff (hroom : 0 < remaining) :
    (stream.putSlice remaining).1 = [] ↔ stream.left = [] := by
  rw [left_eq_nil_iff, putSlice, List.take_eq_nil_iff, List.drop_eq_nil_iff]
  omega

/-- Some of the block is left: a read continues it. -/
theorem pollRead_left (h : stream.left ≠ []) : stream.pollRead remaining =
    (.ready (stream.putSlice remaining).1, (stream.putSlice remaining).2) :=
  if_neg fun hexhausted => h (left_eq_nil_iff.mpr hexhausted)

theorem pollRead_chunk (h : stream.left = []) {chunk : Bytes} {blocks : List Bytes}
    (hblocks : stream.session.blocks = chunk :: blocks) : stream.pollRead remaining =
      (.ready (putSlice ⟨{ stream.session with blocks := blocks }, chunk, 0⟩ remaining).1,
        (putSlice ⟨{ stream.session with blocks := blocks }, chunk, 0⟩ remaining).2) := by
  rw [pollRead, if_pos (left_eq_nil_iff.mp h), SimSession.pollRecvBytes, hblocks]

theorem pollRead_none (h : stream.left = []) (hblocks : stream.session.blocks = []) :
    stream.pollRead remaining =
      (if stream.session.closed then .ready [] else .pending, stream) := by
  rw [pollRead, if_pos (left_eq_nil_iff.mp h), SimSession.pollRecvBytes, hblocks]
  cases stream.session.closed <;> rfl

end PollRead

end SessionStream

/-! ### Runs -/

namespace SessionRun

structure State where
  stream : SessionStream
  /-- The blocks that were sent. -/
  sent : List Bytes
  /-- What each read that returned has put into its buffer. -/
  results : List Bytes

inductive Op where
  | sendBytes (block : Bytes)
  /-- The peer's session is dropped. -/
  | close
  | pollRead (remaining : Nat)

def init : State := ⟨.new ⟨[], false⟩, [], []⟩

def step (s : State) : Op → Option State
  | .sendBytes block =>
      if s.stream.session.closed then none
      else some { s with
        stream.session.blocks := s.stream.session.blocks ++ [block]
        sent := s.sent ++ [block] }
  | .close => some { s with stream.session.closed := true }
  | .pollRead remaining =>
      if 0 < remaining then
        match s.stream.pollRead remaining with
        | (.ready bytes, stream) =>
            some { s with stream := stream, results := s.results ++ [bytes] }
        | (.pending, stream) => some { s with stream := stream }
      else none

/-- Every byte of the blocks that were received is read. -/
def Exhausted (s : State) : Prop := s.stream.left = []

/-- A read finds no block. -/
def FindsNone (s : State) : Prop := Exhausted s ∧ s.stream.session.blocks = []

/-- The peer is gone, and everything it sent is read. -/
def Ended (s : State) : Prop := s.stream.session.closed = true ∧ FindsNone s

/-- A read would receive an empty block that is not the last one of a closed session. -/
def MeetsEmpty (s : State) : Prop :=
  Exhausted s ∧ ∃ blocks, s.stream.session.blocks = [] :: blocks ∧
    ¬ (s.stream.session.closed = true ∧ blocks = [])

/-- No read receives an empty block, unless that is the last one of a closed session. -/
def Genuine (s : State) : Op → Prop
  | .pollRead _ => ¬ MeetsEmpty s
  | _ => True

/-- The bytes of the blocks are those read, those left of the block received, and the blocks that
wait. -/
def Whole (s : State) : Prop :=
  s.sent.flatten = s.results.flatten ++ (s.stream.left ++ s.stream.session.blocks.flatten)

theorem whole_init : Whole init := rfl

section Steps

variable {s t : State} {remaining : Nat}

/-- What one read does. -/
theorem pollRead_cases (hstep : step s (.pollRead remaining) = some t) :
    t.sent = s.sent ∧ t.stream.session.closed = s.stream.session.closed ∧
    ((FindsNone s ∧ s.stream.session.closed = false ∧
        (s.stream.pollRead remaining).1 = .pending ∧ t = s) ∨
      ∃ bytes, (s.stream.pollRead remaining).1 = .ready bytes ∧
        t.results = s.results ++ [bytes] ∧
        bytes ++ (t.stream.left ++ t.stream.session.blocks.flatten) =
          s.stream.left ++ s.stream.session.blocks.flatten ∧
        (bytes = [] → MeetsEmpty s ∨ Ended t)) := by
  rw [step] at hstep
  split_ifs at hstep with hroom
  by_cases hleft : s.stream.left = []
  · cases hblocks : s.stream.session.blocks with
    | nil =>
        rw [SessionStream.pollRead_none hleft hblocks] at hstep ⊢
        cases hclosed : s.stream.session.closed with
        | false =>
            rw [hclosed] at hstep
            obtain rfl := Option.some.inj hstep
            exact ⟨rfl, hclosed, Or.inl ⟨⟨hleft, hblocks⟩, rfl, rfl, rfl⟩⟩
        | true =>
            rw [hclosed] at hstep
            obtain rfl := Option.some.inj hstep
            refine ⟨rfl, hclosed, Or.inr ⟨[], rfl, rfl, ?_, fun _ => Or.inr ⟨hclosed, hleft, hblocks⟩⟩⟩
            rw [hblocks]
            rfl
    | cons chunk blocks =>
        rw [SessionStream.pollRead_chunk hleft hblocks] at hstep ⊢
        obtain rfl := Option.some.inj hstep
        refine ⟨rfl, rfl, Or.inr ⟨_, rfl, rfl, ?_, fun hnil => ?_⟩⟩
        · rw [← List.append_assoc, SessionStream.putSlice_append, hleft]
          rfl
        · have hchunk : chunk = [] := (SessionStream.putSlice_eq_nil_iff hroom).mp hnil
          subst hchunk
          by_cases hlast : s.stream.session.closed = true ∧ blocks = []
          · refine Or.inr ⟨hlast.1, ?_, hlast.2⟩
            have hboth := SessionStream.putSlice_append
              ⟨{ s.stream.session with blocks := blocks }, [], 0⟩ remaining
            exact (List.append_eq_nil_iff.mp hboth).2
          · exact Or.inl ⟨hleft, blocks, hblocks, hlast⟩
  · rw [SessionStream.pollRead_left hleft] at hstep ⊢
    obtain rfl := Option.some.inj hstep
    refine ⟨rfl, rfl, Or.inr ⟨_, rfl, rfl, ?_, fun hnil => ?_⟩⟩
    · rw [← List.append_assoc, SessionStream.putSlice_append]
      rfl
    · exact absurd ((SessionStream.putSlice_eq_nil_iff hroom).mp hnil) hleft

theorem Whole.step (h : Whole s) {op : Op} (hstep : step s op = some t) : Whole t := by
  cases op with
  | sendBytes block =>
      rw [SessionRun.step] at hstep
      split_ifs at hstep
      obtain rfl := Option.some.inj hstep
      change (s.sent ++ [block]).flatten =
        s.results.flatten ++ (s.stream.left ++ (s.stream.session.blocks ++ [block]).flatten)
      rw [List.flatten_append, List.flatten_append, h]
      simp only [List.append_assoc]
  | close =>
      obtain rfl := Option.some.inj hstep
      exact h
  | pollRead remaining =>
      obtain ⟨hsent, _, ⟨_, _, _, rfl⟩ | ⟨bytes, _, hresults, hbytes, _⟩⟩ := pollRead_cases hstep
      · exact h
      · rw [Whole, hsent, hresults, List.flatten_append, List.flatten_singleton, List.append_assoc,
          hbytes]
        exact h

theorem Whole.begins (h : Whole s) : s.results.flatten <+: s.sent.flatten := by
  rw [show s.sent.flatten = _ from h]
  exact List.prefix_append _ _

theorem Whole.complete (h : Whole s) (hnone : FindsNone s) :
    s.results.flatten = s.sent.flatten := by
  rw [show s.sent.flatten = _ from h, hnone.1, hnone.2]
  exact (List.append_nil _).symm

/-- An empty result before the peer is gone and everything is read. -/
theorem meetsEmpty_iff (hstep : step s (.pollRead remaining) = some t) :
    ((s.stream.pollRead remaining).1 = .ready [] → Ended t) ↔ ¬ MeetsEmpty s := by
  obtain ⟨_, hclosed, ⟨hnone, _, hpending, _⟩ | ⟨bytes, hready, _, _, hempty⟩⟩ := pollRead_cases hstep
  · rw [hpending]
    refine iff_of_true (fun h => by cases h) ?_
    rintro ⟨_, blocks, hblocks, _⟩
    rw [hnone.2] at hblocks
    cases hblocks
  · constructor
    · rintro hends ⟨hleft, blocks, hblocks, hmore⟩
      have hpoll : s.stream.pollRead remaining = _ := SessionStream.pollRead_chunk hleft hblocks
      have hboth := SessionStream.putSlice_append
        ⟨{ s.stream.session with blocks := blocks }, [], 0⟩ remaining
      have hnil := (List.append_eq_nil_iff.mp hboth).1
      have hended : Ended t := hends (by rw [hpoll, hnil])
      have hafter : t.stream.session.blocks = blocks := by
        rw [step, hpoll] at hstep
        split_ifs at hstep
        obtain rfl := Option.some.inj hstep
        rfl
      exact hmore ⟨hclosed.symm.trans hended.1, hafter.symm.trans hended.2.2⟩
    · intro hno hnil
      rw [hready] at hnil
      cases hnil
      exact (hempty rfl).resolve_left hno

/-- The results are reads that found something, and then the ends. -/
structure Clean (s : State) (chunks : List Bytes) (ends : Nat) : Prop where
  results_eq : s.results = chunks ++ List.replicate ends []
  chunks_ne : ∀ chunk ∈ chunks, chunk ≠ []
  ended : 0 < ends → Ended s

theorem clean_init : Clean init [] 0 :=
  ⟨rfl, fun _ h => absurd h List.not_mem_nil, fun h => absurd h (lt_irrefl 0)⟩

theorem Clean.step {chunks : List Bytes} {ends : Nat} (h : Clean s chunks ends) {op : Op}
    (hgenuine : Genuine s op) (hstep : step s op = some t) :
    ∃ chunks ends, Clean t chunks ends := by
  cases op with
  | sendBytes block =>
      rw [SessionRun.step] at hstep
      split_ifs at hstep with hclosed
      obtain rfl := Option.some.inj hstep
      exact ⟨chunks, ends, h.results_eq, h.chunks_ne, fun hpos => absurd (h.ended hpos).1 hclosed⟩
  | close =>
      obtain rfl := Option.some.inj hstep
      exact ⟨chunks, ends, h.results_eq, h.chunks_ne, fun hpos => ⟨rfl, (h.ended hpos).2⟩⟩
  | pollRead remaining =>
      obtain ⟨_, hclosed, ⟨_, _, _, rfl⟩ | ⟨bytes, _, hresults, hbytes, hempty⟩⟩ :=
        pollRead_cases hstep
      · exact ⟨chunks, ends, h⟩
      · by_cases hnil : bytes = []
        · subst hnil
          refine ⟨chunks, ends + 1, ?_, h.chunks_ne, fun _ => (hempty rfl).resolve_left hgenuine⟩
          rw [hresults, h.results_eq, List.append_assoc, List.replicate_succ']
        · have hends : ends = 0 := by
            -- after an end there is nothing to read
            by_contra hpos
            obtain ⟨_, hleft, hblocks⟩ := h.ended (Nat.pos_of_ne_zero hpos)
            rw [show s.stream.left = [] from hleft, hblocks] at hbytes
            exact hnil (List.append_eq_nil_iff.mp hbytes).1
          subst hends
          refine ⟨chunks ++ [bytes], 0, ?_, ?_, fun hpos => absurd hpos (lt_irrefl 0)⟩
          · rw [hresults, h.results_eq, List.replicate_zero, List.append_nil, List.append_nil]
          · intro chunk hchunk
            rcases List.mem_append.mp hchunk with hold | hlast
            · exact h.chunks_ne chunk hold
            · exact List.mem_singleton.mp hlast ▸ hnil

theorem Clean.flatten {chunks : List Bytes} {ends : Nat} (h : Clean s chunks ends) :
    s.results.flatten = chunks.flatten := by
  have hempty : (List.replicate ends ([] : Bytes)).flatten = [] :=
    List.flatten_eq_nil_iff.mpr fun _ hmem => List.eq_of_mem_replicate hmem
  rw [h.results_eq, List.flatten_append, hempty, List.append_nil]

theorem Clean.count {chunks : List Bytes} {ends : Nat} (h : Clean s chunks ends) :
    s.results.count [] = ends := by
  have hnone : chunks.count [] = 0 := List.count_eq_zero.mpr fun hmem => h.chunks_ne [] hmem rfl
  rw [h.results_eq, List.count_append, hnone, List.count_replicate_self, Nat.zero_add]

end Steps

/-- What a read is to do: it goes on with the stream, it waits or ends only when everything received
is read, and it ends only a stream that has ended. -/
structure Reads (s t : State) (remaining : Nat) : Prop where
  complete : (s.stream.pollRead remaining).1 = .pending ∨ FindsNone s →
    t.results.flatten = s.sent.flatten
  ended_iff : ((s.stream.pollRead remaining).1 = .ready [] → Ended t ∧
    t.results.flatten = t.sent.flatten) ↔ ¬ MeetsEmpty s

/-- **The session as a stream.** In every run, what is read is a prefix of the blocks; a read that finds
no block has read all of them; and a read reports the end only of a session that has ended if and only
if it does not receive an empty block. Where no read does, the frame reader yields the same frames as
over the concatenated bytes. -/
theorem session_reads (ops : List Op) (s : State) :
    (Run step Free init ops s → s.results.flatten <+: s.sent.flatten ∧
      ∀ remaining t, step s (.pollRead remaining) = some t → Reads s t remaining) ∧
    (Run step Genuine init ops s →
      (s.results.count [] ≠ 0 → Ended s ∧ s.results.flatten = s.sent.flatten) ∧
      ∀ frames last, FrameReader.new.Yields s.results frames last ↔
        FrameReader.new.Yields (FrameReader.joined s.results.flatten ++
          List.replicate (s.results.count []) []) frames last) := by
  have hwhole {meets : State → Op → Prop} {ops : List Op} {s : State}
      (hrun : Run step meets init ops s) : Whole s :=
    hrun.invariant (fun _ _ _ h _ hstep => h.step hstep) whole_init
  refine ⟨fun hrun => ⟨(hwhole hrun).begins, fun remaining t hstep => ⟨?_, ?_⟩⟩,
    fun hrun => ?_⟩
  · intro hnone
    have hafter := (hwhole hrun).step hstep
    obtain ⟨hsent, _, ⟨hfinds, _, _, rfl⟩ | ⟨bytes, hready, hresults, hbytes, _⟩⟩ :=
      pollRead_cases hstep
    · exact (hwhole hrun).complete hfinds
    · have hfinds : FindsNone s := hnone.resolve_left (by rw [hready]; exact fun h => by cases h)
      have hnil : bytes = [] := by
        rw [show s.stream.left = [] from hfinds.1, hfinds.2] at hbytes
        exact (List.append_eq_nil_iff.mp hbytes).1
      rw [hresults, hnil, List.flatten_append, List.flatten_singleton, List.append_nil]
      exact (hwhole hrun).complete hfinds
  · rw [← meetsEmpty_iff hstep]
    have hafter := (hwhole hrun).step hstep
    exact ⟨fun h hready => (h hready).1,
      fun h hready => ⟨h hready, hafter.complete (h hready).2⟩⟩
  · obtain ⟨chunks, ends, h⟩ := hrun.invariant (p := fun s => ∃ chunks ends, Clean s chunks ends)
      (fun _ _ _ ⟨_, _, h⟩ hgenuine hstep => h.step hgenuine hstep) ⟨[], 0, clean_init⟩
    refine ⟨fun hpos => ?_, fun frames last => ?_⟩
    · rw [h.count] at hpos
      have hended := h.ended (Nat.pos_of_ne_zero hpos)
      exact ⟨hended, (hwhole hrun).complete hended.2⟩
    · rw [h.flatten, h.count, h.results_eq]
      exact FrameReader.yields_joined .new _ h.chunks_ne frames last

/-- A block in two reads, and the end. -/
theorem session_reads_pieces : ∃ s, Run step Genuine init
    [.sendBytes [1, 2, 3], .pollRead 2, .close, .pollRead 2, .pollRead 2] s ∧
      s.results = [[1, 2], [3], []] ∧ Ended s := by
  have hbusy {s : State} {block : Bytes} (hblock : block ≠ [])
      (hblocks : s.stream.session.blocks = [block]) : ¬ MeetsEmpty s := by
    rintro ⟨_, blocks, heq, _⟩
    exact hblock (List.cons.inj (hblocks.symm.trans heq)).1
  have hidle {s : State} (hblocks : s.stream.session.blocks = []) : ¬ MeetsEmpty s := by
    rintro ⟨_, blocks, heq, _⟩
    exact List.cons_ne_nil [] blocks (heq.symm.trans hblocks)
  obtain ⟨s, hrun, hresults⟩ : ∃ s, Run step Genuine init
      [.sendBytes [1, 2, 3], .pollRead 2, .close, .pollRead 2, .pollRead 2] s ∧
        s.results = [[1, 2], [3], []] :=
    ⟨_, .cons rfl trivial (.cons rfl (hbusy (List.cons_ne_nil 1 [2, 3]) rfl) (.cons rfl trivial
      (.cons rfl (hidle rfl) (.cons rfl (hidle rfl) (.nil _))))), rfl⟩
  exact ⟨s, hrun, hresults, (((session_reads _ s).2 hrun).1 (by rw [hresults]; decide)).1⟩

/-- An empty block in front of a frame: the read that receives it reports the end of an open session,
and the frame reader returns none. -/
theorem empty_block_ends : ∃ s, Run step Free init
    [.sendBytes [], .sendBytes (Frame.new .ping 0 []).encode] s ∧
      (s.stream.pollRead 8).1 = .ready [] ∧
      ∃ t, step s (.pollRead 8) = some t ∧ t.stream.session.closed = false ∧
        t.results.flatten ≠ t.sent.flatten ∧
        (FrameReader.new.nextFrame t.results).1 = some (.ok none) := by
  exact ⟨_, .cons rfl trivial (.cons rfl trivial (.nil _)), rfl, _, rfl, rfl, by decide, rfl⟩

end SessionRun

end Ohmcp
