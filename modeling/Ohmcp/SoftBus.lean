import Ohmcp.SessionStream
import Mathlib.Logic.Function.Basic

/-! The two ends of a pair of message sessions, each with a frame writer and a frame reader of its own:
what is flushed at one end comes out at the other, whatever the ends do in between. -/

open Transition

namespace Ohmcp

namespace SoftBus

/-! ### The ends -/

inductive Side where
  | a
  | b
  deriving DecidableEq

def Side.peer : Side → Side
  | a => b
  | b => a

/-- The frame writer over the session. -/
structure Sending where
  writer : FrameWriter
  /-- The frames that were queued. -/
  queued : List Frame
  /-- Those of them that were flushed. -/
  flushed : List Frame

/-- The frame reader over the session. -/
structure Receiving where
  stream : SessionStream
  reader : FrameReader
  /-- The frames that were read. -/
  returned : List Frame
  /-- The results without a frame. -/
  ends : List (Except CoreError Unit)

structure Endpoint where
  sending : Sending
  receiving : Receiving
  dropped : Bool

def Endpoint.new : Endpoint := ⟨⟨.new, [], []⟩, ⟨.new ⟨[], false⟩, .new, [], []⟩, false⟩

def Sending.queue (here : Sending) (frame : Frame) : Sending :=
  { here with writer := here.writer.queue frame, queued := here.queued ++ [frame] }

/-- `send_bytes`: the block goes to the peer, unless that is gone. -/
def Endpoint.sendBytes (there : Endpoint) (data : Bytes) : Except String Receiving :=
  let session := there.receiving.stream.session
  if there.dropped then .error "peer session closed"
  else .ok { there.receiving with stream.session.blocks := session.blocks ++ [data] }

/-- `flush`: what is queued is one block. Nothing is sent when nothing is queued, and what is queued
stays when the block cannot be sent. -/
def Sending.flush (here : Sending) (there : Endpoint) : Except CoreError (Sending × Receiving) :=
  if here.writer.buf = [] then .ok (here, there.receiving)
  else
    match there.sendBytes here.writer.flush.1 with
    | .error e => .error (.codec e)
    | .ok receiving =>
        .ok ({ here with writer := here.writer.flush.2, flushed := here.queued }, receiving)

namespace Receiving

/-- What the frame reader returned is kept. -/
def record (here : Receiving) (reader : FrameReader) :
    Option (Except CoreError (Option Frame)) → Receiving
  | none => { here with reader := reader }
  | some (.ok (some frame)) =>
      { here with reader := reader, returned := here.returned ++ [frame] }
  | some (.ok none) => { here with reader := reader, ends := here.ends ++ [.ok ()] }
  | some (.error e) => { here with reader := reader, ends := here.ends ++ [.error e] }

/-- `next_frame` until it has a frame or has read from the stream once; it keeps nothing between the
reads. -/
def nextFrame (here : Receiving) (remaining : Nat) : Receiving :=
  match here.reader.nextFrame [] with
  | (some result, reader, _) => here.record reader (some result)
  | (none, reader, _) =>
      match here.stream.pollRead remaining with
      | (.pending, stream) => { here with stream := stream, reader := reader }
      | (.ready bytes, stream) =>
          let (result, reader, _) := reader.nextFrame [bytes]
          { here with stream := stream }.record reader result

def nextBuffered (here : Receiving) : Receiving :=
  match here.reader.nextBuffered with
  | (.ok none, reader) => here.record reader none
  | (result, reader) => here.record reader (some result)

end Receiving

/-! ### Runs -/

inductive Op where
  | queue (frame : Frame)
  | flush
  | nextFrame (remaining : Nat)
  | nextBuffered
  | drop

abbrev State := Side → Endpoint

def init : State := fun _ => .new

/-- One end does something, as long as it is there. -/
def act (s : State) (side : Side) (op : Op) : Option State :=
  let here := s side
  let there := s side.peer
  if here.dropped then none
  else
    match op with
    | .queue frame =>
        some (Function.update s side { here with sending := here.sending.queue frame })
    | .flush =>
        match here.sending.flush there with
        | .ok (sending, receiving) =>
            some (Function.update (Function.update s side { here with sending := sending })
              side.peer { there with receiving := receiving })
        | .error _ => some s
    | .nextFrame remaining =>
        if 0 < remaining then
          some (Function.update s side
            { here with receiving := here.receiving.nextFrame remaining })
        else none
    | .nextBuffered =>
        some (Function.update s side { here with receiving := here.receiving.nextBuffered })
    | .drop =>
        some (Function.update (Function.update s side { here with dropped := true })
          side.peer { there with receiving.stream.session.closed := true })

def step (s : State) (op : Side × Op) : Option State := act s op.1 op.2

/-- The frames are those the code builds, with payloads within the limit. -/
def Proper (_ : State) : Side × Op → Prop
  | (_, .queue frame) => frame.WellFormed
  | _ => True

/-! ### From one end to the other -/

/-- The bytes that were sent to the session and are not read. -/
def Receiving.unread (here : Receiving) : Bytes :=
  here.stream.left ++ here.stream.session.blocks.flatten

/-- No byte is lost between the frames queued at one end and those read at the other: `waiting` are
not flushed, `later` are flushed and not read. -/
structure Carries (sending : Sending) (dropped : Bool) (receiving : Receiving)
    (waiting later : List Frame) : Prop where
  wellFormed : ∀ frame ∈ sending.queued, frame.WellFormed
  queued_eq : sending.queued = sending.flushed ++ waiting
  buf_eq : sending.writer.buf = Frame.encodeAll waiting
  flushed_eq : sending.flushed = receiving.returned ++ later
  bytes_eq : receiving.reader.buf ++ receiving.unread = Frame.encodeAll later
  blocks_ne : ∀ block ∈ receiving.stream.session.blocks, block ≠ []
  written_eq : sending.writer.bytesWritten = (Frame.encodeAll sending.flushed).length
  read_eq : receiving.reader.bytesRead + receiving.unread.length = sending.writer.bytesWritten
  closed_eq : receiving.stream.session.closed = dropped
  ended : ∀ e ∈ receiving.ends, e = .ok () ∧ dropped = true ∧ later = []

section Carries

variable {sending : Sending} {dropped : Bool} {receiving : Receiving} {waiting later : List Frame}

theorem carries_new : Carries Endpoint.new.sending false Endpoint.new.receiving [] [] where
  wellFormed _ hmem := absurd hmem List.not_mem_nil
  queued_eq := rfl
  buf_eq := rfl
  flushed_eq := rfl
  bytes_eq := rfl
  blocks_ne _ hmem := absurd hmem List.not_mem_nil
  written_eq := rfl
  read_eq := rfl
  closed_eq := rfl
  ended _ hmem := absurd hmem List.not_mem_nil

theorem Carries.not_ended (h : Carries sending false receiving waiting later) :
    receiving.ends = [] := by
  apply List.eq_nil_iff_forall_not_mem.mpr
  intro e he
  have hgone := (h.ended e he).2.1
  cases hgone

theorem Carries.queue (h : Carries sending dropped receiving waiting later) {frame : Frame}
    (hwf : frame.WellFormed) :
    Carries (sending.queue frame) dropped receiving (waiting ++ [frame]) later where
  wellFormed := by
    intro other hother
    rcases List.mem_append.mp hother with hold | hnew
    · exact h.wellFormed other hold
    · rw [List.mem_singleton.mp hnew]
      exact hwf
  queued_eq := by simp only [Sending.queue, h.queued_eq, List.append_assoc]
  buf_eq := by simp [Sending.queue, FrameWriter.queue, h.buf_eq]
  flushed_eq := h.flushed_eq
  bytes_eq := h.bytes_eq
  blocks_ne := h.blocks_ne
  written_eq := h.written_eq
  read_eq := h.read_eq
  closed_eq := h.closed_eq
  ended := h.ended

/-- What is queued goes into one block, so no block is empty. -/
theorem Carries.flush (h : Carries sending false receiving waiting later) {there : Endpoint}
    (hthere : there.receiving = receiving) {sending' : Sending} {receiving' : Receiving}
    (hflush : sending.flush there = .ok (sending', receiving')) :
    ∃ waiting later, Carries sending' false receiving' waiting later := by
  rw [Sending.flush] at hflush
  split_ifs at hflush with hempty
  · cases hflush
    exact ⟨waiting, later, hthere ▸ h⟩
  · rw [Endpoint.sendBytes] at hflush
    split_ifs at hflush with hgone
    cases hflush
    subst hthere
    refine ⟨[], later ++ waiting, ?_⟩
    have hunread : Receiving.unread { there.receiving with
        stream.session.blocks := there.receiving.stream.session.blocks ++ [sending.writer.buf] } =
          there.receiving.unread ++ sending.writer.buf := by
      simp [Receiving.unread, SessionStream.left]
    constructor
    · exact h.wellFormed
    · exact (List.append_nil _).symm
    · rfl
    · simp only [h.queued_eq, h.flushed_eq, List.append_assoc]
    · calc there.receiving.reader.buf ++ Receiving.unread _
        _ = (there.receiving.reader.buf ++ there.receiving.unread) ++ sending.writer.buf := by
          rw [FrameWriter.flush, hunread, List.append_assoc]
        _ = Frame.encodeAll (later ++ waiting) := by
          rw [h.bytes_eq, h.buf_eq, Frame.encodeAll_append]
    · intro block hblock
      rcases List.mem_append.mp hblock with hold | hnew
      · exact h.blocks_ne block hold
      · rw [List.mem_singleton.mp hnew]
        exact hempty
    · simp [FrameWriter.flush, h.written_eq, h.queued_eq, h.buf_eq]
    · have hread := h.read_eq
      simp only [FrameWriter.flush, hunread, List.length_append]
      omega
    · exact h.closed_eq
    · intro e he
      rw [show there.receiving.ends = [] from h.not_ended] at he
      exact absurd he List.not_mem_nil

/-- The sender goes. -/
theorem Carries.drop (h : Carries sending false receiving waiting later) :
    Carries sending true { receiving with stream.session.closed := true } waiting later where
  wellFormed := h.wellFormed
  queued_eq := h.queued_eq
  buf_eq := h.buf_eq
  flushed_eq := h.flushed_eq
  bytes_eq := h.bytes_eq
  blocks_ne := h.blocks_ne
  written_eq := h.written_eq
  read_eq := h.read_eq
  closed_eq := rfl
  ended e he := by
    rw [show receiving.ends = [] from h.not_ended] at he
    exact absurd he List.not_mem_nil

/-- Of frames that are due, the buffer holds the first, or only a beginning of it. -/
theorem decode_due {buf more : Bytes} (hwf : ∀ frame ∈ later, frame.WellFormed)
    (hdue : buf ++ more = Frame.encodeAll later) :
    (∃ frame rest left, later = frame :: rest ∧ Frame.decode buf = (.ok (some frame), left) ∧
        left ++ more = Frame.encodeAll rest) ∨ Frame.Incomplete buf := by
  obtain ⟨first, rest, begun, rfl, rfl, hrest, hbegun⟩ := Frame.exists_split_of_append hwf
    Frame.incomplete_nil (hdue.trans (List.append_nil _).symm)
  cases first with
  | nil => exact Or.inr hbegun
  | cons frame first =>
      have hframe := hwf frame (List.mem_append_left _ List.mem_cons_self)
      refine Or.inl ⟨frame, first ++ rest, Frame.encodeAll first ++ begun, rfl, ?_, ?_⟩
      · rw [Frame.encodeAll_cons, List.append_assoc, Frame.decode_encode_append hframe]
      · rw [List.append_assoc, hrest, List.append_nil, Frame.encodeAll_append]

theorem Carries.wellFormed_later (h : Carries sending dropped receiving waiting later) :
    ∀ frame ∈ later, frame.WellFormed := by
  intro frame hframe
  apply h.wellFormed
  rw [h.queued_eq, h.flushed_eq]
  exact List.mem_append_left _ (List.mem_append_right _ hframe)

/-- The frame that is due first is read. -/
theorem Carries.return {frame : Frame} {rest : List Frame} {left : Bytes}
    (h : Carries sending dropped receiving waiting (frame :: rest))
    (hleft : left ++ receiving.unread = Frame.encodeAll rest) :
    Carries sending dropped
      (receiving.record { receiving.reader with buf := left } (some (.ok (some frame))))
      waiting rest where
  wellFormed := h.wellFormed
  queued_eq := h.queued_eq
  buf_eq := h.buf_eq
  flushed_eq := by simp only [Receiving.record, h.flushed_eq, List.append_assoc, List.singleton_append]
  bytes_eq := hleft
  blocks_ne := h.blocks_ne
  written_eq := h.written_eq
  read_eq := h.read_eq
  closed_eq := h.closed_eq
  ended e he := by
    have hnone := (h.ended e he).2.2
    cases hnone

/-- Bytes are read from the stream. -/
theorem Carries.pull (h : Carries sending dropped receiving waiting later) {bytes : Bytes}
    {stream : SessionStream}
    (hbytes : bytes ++ (stream.left ++ stream.session.blocks.flatten) = receiving.unread)
    (hblocks : ∀ block ∈ stream.session.blocks, block ≠ [])
    (hclosed : stream.session.closed = receiving.stream.session.closed) :
    Carries sending dropped { receiving with
        stream := stream
        reader := ⟨receiving.reader.buf ++ bytes, receiving.reader.bytesRead + bytes.length⟩ }
      waiting later where
  wellFormed := h.wellFormed
  queued_eq := h.queued_eq
  buf_eq := h.buf_eq
  flushed_eq := h.flushed_eq
  bytes_eq := by
    rw [← h.bytes_eq, ← hbytes]
    exact List.append_assoc _ _ _
  blocks_ne := hblocks
  written_eq := h.written_eq
  read_eq := by
    rw [← h.read_eq, ← hbytes, List.length_append, ← Nat.add_assoc]
    rfl
  closed_eq := hclosed.trans h.closed_eq
  ended := h.ended

/-- The end of the stream is reported. -/
theorem Carries.finish (h : Carries sending true receiving waiting []) {reader : FrameReader}
    (hreader : reader = receiving.reader) :
    Carries sending true (receiving.record reader (some (.ok none))) waiting [] where
  wellFormed := h.wellFormed
  queued_eq := h.queued_eq
  buf_eq := h.buf_eq
  flushed_eq := h.flushed_eq
  bytes_eq := hreader ▸ h.bytes_eq
  blocks_ne := h.blocks_ne
  written_eq := h.written_eq
  read_eq := hreader ▸ h.read_eq
  closed_eq := h.closed_eq
  ended e he := by
    rcases List.mem_append.mp he with hold | hnew
    · exact h.ended e hold
    · exact ⟨List.mem_singleton.mp hnew, rfl, rfl⟩

/-- What is unread shrinks by what is read: nothing only where there is nothing. -/
theorem pollRead_unread {stream : SessionStream} {remaining : Nat} (hroom : 0 < remaining)
    (hblocks : ∀ block ∈ stream.session.blocks, block ≠ []) :
    (stream.left ++ stream.session.blocks.flatten = [] ∧ stream.pollRead remaining =
        (if stream.session.closed then .ready [] else .pending, stream)) ∨
      ∃ bytes stream', stream.pollRead remaining = (.ready bytes, stream') ∧ bytes ≠ [] ∧
        bytes ++ (stream'.left ++ stream'.session.blocks.flatten) =
          stream.left ++ stream.session.blocks.flatten ∧
        (∀ block ∈ stream'.session.blocks, block ≠ []) ∧
        stream'.session.closed = stream.session.closed := by
  by_cases hleft : stream.left = []
  · cases hnext : stream.session.blocks with
    | nil => exact Or.inl ⟨by rw [hleft]; rfl, SessionStream.pollRead_none hleft hnext⟩
    | cons chunk blocks =>
        rw [hnext] at hblocks
        obtain ⟨hchunk, hrest⟩ := List.forall_mem_cons.mp hblocks
        refine Or.inr ⟨_, _, SessionStream.pollRead_chunk hleft hnext, fun hnil => ?_, ?_, hrest, rfl⟩
        · exact hchunk ((SessionStream.putSlice_eq_nil_iff hroom).mp hnil)
        · rw [← List.append_assoc, SessionStream.putSlice_append, hleft]
          rfl
  · refine Or.inr ⟨_, _, SessionStream.pollRead_left hleft, fun hnil => ?_, ?_, hblocks, rfl⟩
    · exact hleft ((SessionStream.putSlice_eq_nil_iff hroom).mp hnil)
    · rw [← List.append_assoc, SessionStream.putSlice_append]
      rfl

/-- What a call of `next_frame` does: with nothing left to read it waits, or ends once the sender is
gone; before that it returns the frame that is due, or it reads on. -/
inductive Fetches (dropped : Bool) (here : Receiving) (later : List Frame) (here' : Receiving) :
    List Frame → Prop where
  | waits (hlater : later = []) (hreturned : here'.returned = here.returned)
      (hends : here'.ends = here.ends ++ if dropped then [.ok ()] else []) :
      Fetches dropped here later here' []
  | returns (frame : Frame) (rest : List Frame) (hlater : later = frame :: rest)
      (hends : here'.ends = here.ends) (hunread : here'.unread.length ≤ here.unread.length) :
      Fetches dropped here later here' rest
  | reads (hends : here'.ends = here.ends) (hunread : here'.unread.length < here.unread.length) :
      Fetches dropped here later here' later

/-- At the end of the stream with nothing buffered. -/
theorem nextFrame_over {reader : FrameReader} (hbuf : reader.buf = []) :
    reader.nextFrame [[]] = (some (.ok none), reader, []) := by
  rw [FrameReader.nextFrame, hbuf, Frame.decode_nil]
  simp only [List.append_nil, List.length_nil, Nat.add_zero, if_true]
  rw [← hbuf]

theorem Carries.nextFrame (h : Carries sending dropped receiving waiting later) {remaining : Nat}
    (hroom : 0 < remaining) :
    ∃ later', Carries sending dropped (receiving.nextFrame remaining) waiting later' ∧
      Fetches dropped receiving later (receiving.nextFrame remaining) later' := by
  rcases decode_due h.wellFormed_later h.bytes_eq with ⟨frame, rest, left, rfl, hdecode, hleft⟩ | hbegun
  · have hnext : receiving.nextFrame remaining =
        receiving.record { receiving.reader with buf := left } (some (.ok (some frame))) := by
      rw [Receiving.nextFrame, FrameReader.nextFrame_buffered hdecode]
    rw [hnext]
    exact ⟨rest, h.return hleft, .returns frame rest rfl rfl le_rfl⟩
  · have hwait := FrameReader.nextFrame_wait hbegun
    rcases pollRead_unread hroom h.blocks_ne with ⟨hnone, hpoll⟩ |
      ⟨bytes, stream, hpoll, hbytes, hunread, hblocks, hclosed⟩
    · have hdue : receiving.reader.buf ++ [] = Frame.encodeAll later := by
        rw [← h.bytes_eq]
        exact congrArg (receiving.reader.buf ++ ·) hnone.symm
      cases later with
      | cons frame rest =>
          -- a whole frame cannot lie in a buffer that holds none
          rw [List.append_nil] at hdue
          have hframe := h.wellFormed_later frame List.mem_cons_self
          exact absurd hdue (hbegun.ne_encode_append hframe _)
      | nil =>
          rw [h.closed_eq] at hpoll
          cases dropped with
          | false =>
              have hsame : receiving.nextFrame remaining = receiving := by
                rw [Receiving.nextFrame, hwait, hpoll]
                rfl
              rw [hsame]
              exact ⟨[], h, .waits rfl rfl (List.append_nil _).symm⟩
          | true =>
              rw [List.append_nil] at hdue
              have hnext : receiving.nextFrame remaining =
                  receiving.record receiving.reader (some (.ok none)) := by
                rw [Receiving.nextFrame, hwait, hpoll]
                simp only [if_true, nextFrame_over hdue]
              rw [hnext]
              exact ⟨[], h.finish rfl, .waits rfl rfl rfl⟩
    · have hpulled := h.pull hunread hblocks hclosed
      have hless : (stream.left ++ stream.session.blocks.flatten).length < receiving.unread.length := by
        have hlen := congrArg List.length hunread
        have hpos := List.length_pos_of_ne_nil hbytes
        rw [List.length_append] at hlen
        change _ < (receiving.stream.left ++ _).length
        omega
      have hnext : receiving.nextFrame remaining = { receiving with stream := stream }.record
          (FrameReader.nextFrame ⟨receiving.reader.buf ++ bytes,
            receiving.reader.bytesRead + bytes.length⟩ []).2.1
          (FrameReader.nextFrame ⟨receiving.reader.buf ++ bytes,
            receiving.reader.bytesRead + bytes.length⟩ []).1 := by
        rw [Receiving.nextFrame, hwait, hpoll]
        simp only [FrameReader.nextFrame_read hbegun hbytes]
      rw [hnext]
      rcases decode_due hpulled.wellFormed_later hpulled.bytes_eq with
        ⟨frame, rest, left, rfl, hdecode, hleft⟩ | hbegun'
      · rw [FrameReader.nextFrame_buffered hdecode]
        exact ⟨rest, hpulled.return hleft, .returns frame rest rfl rfl hless.le⟩
      · rw [FrameReader.nextFrame_wait hbegun']
        exact ⟨later, hpulled, .reads rfl hless⟩

theorem Carries.nextBuffered (h : Carries sending dropped receiving waiting later) :
    ∃ later', Carries sending dropped receiving.nextBuffered waiting later' := by
  rcases decode_due h.wellFormed_later h.bytes_eq with ⟨frame, rest, left, rfl, hdecode, hleft⟩ | hbegun
  · refine ⟨rest, ?_⟩
    rw [Receiving.nextBuffered, FrameReader.nextBuffered, hdecode]
    exact h.return hleft
  · refine ⟨later, ?_⟩
    rw [Receiving.nextBuffered, FrameReader.nextBuffered, hbegun.decode_eq]
    exact h

end Carries

/-! ### Both ways -/

section Steps

variable {s t : State}

/-- Both directions carry what is put into them. -/
def Whole (s : State) : Prop := ∀ side : Side, ∃ waiting later,
  Carries (s side).sending (s side).dropped (s side.peer).receiving waiting later

theorem whole_init : Whole init := fun _ => ⟨[], [], carries_new⟩

@[simp] theorem Side.peer_peer (side : Side) : side.peer.peer = side := by cases side <;> rfl

theorem Side.peer_ne (side : Side) : side.peer ≠ side := by cases side <;> decide

theorem Side.eq_or_eq_peer (side other : Side) : other = side ∨ other = side.peer := by
  cases side <;> cases other <;> decide

/-- What a step does at the two ends. -/
theorem act_ends {side : Side} {op : Op} (hact : act s side op = some t) :
    (s side).dropped = false ∧
      match op with
      | .queue frame => t side = { s side with sending := (s side).sending.queue frame } ∧
          t side.peer = s side.peer
      | .flush => (∃ e, (s side).sending.flush (s side.peer) = .error e ∧ t = s) ∨
          ∃ sending receiving, (s side).sending.flush (s side.peer) = .ok (sending, receiving) ∧
            t side = { s side with sending := sending } ∧
            t side.peer = { s side.peer with receiving := receiving }
      | .nextFrame remaining => 0 < remaining ∧
          t side = { s side with receiving := (s side).receiving.nextFrame remaining } ∧
          t side.peer = s side.peer
      | .nextBuffered => t side = { s side with receiving := (s side).receiving.nextBuffered } ∧
          t side.peer = s side.peer
      | .drop => t side = { s side with dropped := true } ∧
          t side.peer = { s side.peer with receiving.stream.session.closed := true } := by
  have hne := Side.peer_ne side
  unfold act at hact
  dsimp only at hact
  split_ifs at hact with hdropped
  refine ⟨Bool.eq_false_iff.mpr hdropped, ?_⟩
  cases op with
  | queue frame =>
      obtain rfl := Option.some.inj hact
      exact ⟨Function.update_self .., Function.update_of_ne hne ..⟩
  | flush =>
      cases hflush : (s side).sending.flush (s side.peer) with
      | error e =>
          rw [hflush] at hact
          exact Or.inl ⟨e, rfl, (Option.some.inj hact).symm⟩
      | ok both =>
          rw [hflush] at hact
          obtain rfl := Option.some.inj hact
          refine Or.inr ⟨both.1, both.2, rfl, ?_, Function.update_self ..⟩
          rw [Function.update_of_ne hne.symm, Function.update_self]
  | nextFrame remaining =>
      dsimp only at hact
      split_ifs at hact with hroom
      obtain rfl := Option.some.inj hact
      exact ⟨hroom, Function.update_self .., Function.update_of_ne hne ..⟩
  | nextBuffered =>
      obtain rfl := Option.some.inj hact
      exact ⟨Function.update_self .., Function.update_of_ne hne ..⟩
  | drop =>
      obtain rfl := Option.some.inj hact
      refine ⟨?_, Function.update_self ..⟩
      rw [Function.update_of_ne hne.symm, Function.update_self]

theorem Whole.step (h : Whole s) {op : Side × Op} (hproper : Proper s op)
    (hstep : step s op = some t) : Whole t := by
  obtain ⟨side, op⟩ := op
  obtain ⟨hthere, hop⟩ := act_ends hstep
  obtain ⟨waiting, later, hout⟩ := h side
  obtain ⟨waiting', later', hin⟩ := h side.peer
  rw [Side.peer_peer] at hin
  rw [hthere] at hout
  suffices hboth : (∃ waiting later, Carries (t side).sending (t side).dropped
      (t side.peer).receiving waiting later) ∧ ∃ waiting later, Carries (t side.peer).sending
      (t side.peer).dropped (t side).receiving waiting later by
    intro other
    rcases Side.eq_or_eq_peer side other with rfl | rfl
    · exact hboth.1
    · rw [Side.peer_peer]
      exact hboth.2
  cases op with
  | queue frame =>
      obtain ⟨hhere, hpeer⟩ := hop
      rw [hhere, hpeer, hthere]
      exact ⟨⟨_, _, hout.queue hproper⟩, _, _, hin⟩
  | flush =>
      rcases hop with ⟨_, _, rfl⟩ | ⟨sending, receiving, hflush, hhere, hpeer⟩
      · rw [hthere]
        exact ⟨⟨_, _, hout⟩, _, _, hin⟩
      · rw [hhere, hpeer, hthere]
        exact ⟨hout.flush rfl hflush, _, _, hin⟩
  | nextFrame remaining =>
      obtain ⟨hroom, hhere, hpeer⟩ := hop
      rw [hhere, hpeer, hthere]
      obtain ⟨left, hnext, _⟩ := hin.nextFrame hroom
      exact ⟨⟨_, _, hout⟩, _, _, hnext⟩
  | nextBuffered =>
      obtain ⟨hhere, hpeer⟩ := hop
      rw [hhere, hpeer, hthere]
      obtain ⟨left, hnext⟩ := hin.nextBuffered
      exact ⟨⟨_, _, hout⟩, _, _, hnext⟩
  | drop =>
      obtain ⟨hhere, hpeer⟩ := hop
      rw [hhere, hpeer]
      exact ⟨⟨_, _, hout.drop⟩, _, _, hin⟩

theorem Carries.unread_eq {sending : Sending} {dropped : Bool} {receiving : Receiving}
    {waiting : List Frame} (h : Carries sending dropped receiving waiting []) :
    receiving.unread = [] :=
  (List.append_eq_nil_iff.mp h.bytes_eq).2

/-- Asking as often as there are bytes to read and frames to return is enough for all the frames, and
once more for the end. -/
theorem fetched {side : Side} {waiting later : List Frame} {rooms : List Nat}
    (hcarries : Carries (s side.peer).sending (s side.peer).dropped (s side).receiving waiting later)
    (hrun : Run step Proper s (rooms.map fun room => (side, .nextFrame room)) t) :
    ((s side).receiving.unread.length + later.length ≤ rooms.length →
        (t side).receiving.returned = (s side.peer).sending.flushed) ∧
      ((s side).receiving.unread.length + later.length < rooms.length →
        (s side.peer).dropped = true → .ok () ∈ (t side).receiving.ends) ∧
      (.ok () ∈ (s side).receiving.ends → .ok () ∈ (t side).receiving.ends) := by
  induction rooms generalizing s later with
  | nil =>
      cases hrun
      refine ⟨fun hnone => ?_, fun hless => absurd hless (Nat.not_lt_zero _), id⟩
      have hlater : later = [] := List.length_eq_zero_iff.mp (Nat.eq_zero_of_add_eq_zero
        (Nat.le_zero.mp hnone)).2
      rw [hcarries.flushed_eq, hlater, List.append_nil]
  | cons room rooms ih =>
      rw [List.map_cons] at hrun
      cases hrun with
      | @cons _ u _ _ _ hstep _ hrest =>
          obtain ⟨_, hroom, hhere, hpeer⟩ := act_ends hstep
          obtain ⟨left, hnext, hfetches⟩ := hcarries.nextFrame hroom
          have hreceiving : (u side).receiving = (s side).receiving.nextFrame room := by rw [hhere]
          rw [← hreceiving, ← hpeer] at hnext
          rw [← hreceiving] at hfetches
          obtain ⟨hall, hend, hkeep⟩ := ih hnext hrest
          rw [hpeer] at hall hend
          rw [List.length_cons]
          cases hfetches with
          | waits hlater _ hends =>
              subst hlater
              have hnone : (u side).receiving.unread.length + ([] : List Frame).length ≤ rooms.length := by
                rw [hnext.unread_eq]
                exact Nat.zero_le _
              refine ⟨fun _ => hall hnone, fun _ hgone => hkeep ?_, fun hold => hkeep ?_⟩
              · rw [hends, hgone]
                exact List.mem_append_right _ (List.mem_singleton_self _)
              · rw [hends]
                exact List.mem_append_left _ hold
          | returns frame rest hlater hends hunread =>
              subst hlater
              rw [List.length_cons]
              refine ⟨fun hle => hall ?_, fun hlt => hend ?_, fun hold => hkeep (hends ▸ hold)⟩
              · omega
              · omega
          | reads hends hunread =>
              refine ⟨fun hle => hall ?_, fun hlt => hend ?_, fun hold => hkeep (hends ▸ hold)⟩
              · omega
              · omega

/-- **The soft bus carries frames.** In every run of the two ends, whatever they queue, flush and read
in any order and whenever either goes away: at each end the frames read are a prefix of those the other
end flushed, and these of those it queued; the bytes counted at the two ends are those of the frames;
the only result without a frame is the end of the stream, after the other end went away and everything
it flushed was read; and as many calls as there are bytes and frames to come return all of them, and one
more call reports the end if the other end is gone. -/
theorem softbus_carries {ops : List (Side × Op)} (hrun : Run step Proper init ops s) (side : Side) :
    let sending := (s side.peer).sending
    let receiving := (s side).receiving
    (receiving.returned <+: sending.flushed ∧ sending.flushed <+: sending.queued) ∧
      (sending.writer.bytesWritten = (Frame.encodeAll sending.flushed).length ∧
        receiving.reader.bytesRead + receiving.unread.length = sending.writer.bytesWritten) ∧
      (∀ e ∈ receiving.ends, e = .ok () ∧ (s side.peer).dropped = true ∧
        receiving.returned = sending.flushed) ∧
      ∀ (rooms : List Nat) (t : State), Run step Proper s (rooms.map fun room => (side, .nextFrame room)) t →
        let due := receiving.unread.length + (sending.flushed.length - receiving.returned.length)
        (due ≤ rooms.length → (t side).receiving.returned = sending.flushed) ∧
          (due < rooms.length → (s side.peer).dropped = true →
            .ok () ∈ (t side).receiving.ends) := by
  have hwhole : Whole s :=
    hrun.invariant (fun _ _ _ h hproper hstep => h.step hproper hstep) whole_init
  obtain ⟨waiting, later, h⟩ := hwhole side.peer
  rw [Side.peer_peer] at h
  refine ⟨⟨?_, ?_⟩, ⟨h.written_eq, h.read_eq⟩, fun e he => ?_, fun rooms t hfetch => ?_⟩
  · rw [h.flushed_eq]
    exact List.prefix_append _ _
  · rw [h.queued_eq]
    exact List.prefix_append _ _
  · obtain ⟨hok, hgone, hlater⟩ := h.ended e he
    refine ⟨hok, hgone, ?_⟩
    rw [h.flushed_eq, hlater, List.append_nil]
  · have hdue : (s side.peer).sending.flushed.length - (s side).receiving.returned.length =
        later.length := by
      rw [h.flushed_eq, List.length_append, Nat.add_sub_cancel_left]
    obtain ⟨hall, hend, _⟩ := fetched h hfetch
    rw [hdue]
    exact ⟨hall, hend⟩

/-- One end flushes a frame and goes away; the other reads it in two pieces, and then the end. -/
theorem softbus_carries_gone : ∃ s : State, (s .b).receiving.ends = [.ok ()] ∧
    (s .b).receiving.returned = [Frame.new .ping 0 []] ∧ (s .a).dropped = true ∧
    (s .b).receiving.returned = (s .a).sending.flushed := by
  have hwf : (Frame.new .ping 0 []).WellFormed := ⟨rfl, Nat.zero_le _⟩
  obtain ⟨s, hrun, hends, hreturned⟩ : ∃ s : State, Run step Proper init
      [(.a, .queue (.new .ping 0 [])), (.a, .flush), (.a, .drop), (.b, .nextFrame 8),
        (.b, .nextFrame 64), (.b, .nextFrame 64)] s ∧ (s .b).receiving.ends = [.ok ()] ∧
      (s .b).receiving.returned = [Frame.new .ping 0 []] :=
    ⟨_, .cons rfl hwf (.cons rfl trivial (.cons rfl trivial (.cons rfl trivial (.cons rfl trivial
      (.cons rfl trivial (.nil _)))))), rfl, rfl⟩
  obtain ⟨_, hgone, hall⟩ := (softbus_carries hrun .b).2.2.1 (.ok ()) (by
    rw [hends]
    exact List.mem_singleton_self _)
  exact ⟨s, hends, hreturned, hgone, hall⟩

end Steps

end SoftBus

end Ohmcp
