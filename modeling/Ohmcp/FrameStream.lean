import Ohmcp.FrameCodec
import Ohmcp.Transition

/-! The framed ends of a stream: a writer that queues frames and flushes them together, and a reader
that decodes from its buffer and reads more only when that holds no complete frame. -/

open Transition

namespace Ohmcp

/-! ### The writer and the reader -/

structure FrameWriter where
  buf : Bytes
  bytesWritten : Nat

namespace FrameWriter

def new : FrameWriter := ⟨[], 0⟩

def queue (writer : FrameWriter) (frame : Frame) : FrameWriter :=
  { writer with buf := writer.buf ++ frame.encode }

/-- The bytes of the one write, none when nothing is queued. -/
def flush (writer : FrameWriter) : Bytes × FrameWriter :=
  (writer.buf, ⟨[], writer.bytesWritten + writer.buf.length⟩)

end FrameWriter

structure FrameReader where
  buf : Bytes
  bytesRead : Nat

namespace FrameReader

def new : FrameReader := ⟨[], 0⟩

/-- Decodes from the bytes that are buffered, and reads nothing. -/
def nextBuffered (reader : FrameReader) : Except CoreError (Option Frame) × FrameReader :=
  let (decoded, buf) := Frame.decode reader.buf
  (decoded, { reader with buf := buf })

/-- The next frame, given what the reads of the socket return; a read of no bytes is the end of the
stream. When there is nothing to read, the future waits: it has no result, and whoever drops it and
asks again finds the reader as it is. -/
def nextFrame (reader : FrameReader) (reads : List Bytes) :
    Option (Except CoreError (Option Frame)) × FrameReader × List Bytes :=
  match Frame.decode reader.buf with
  | (.ok (some frame), buf) => (some (.ok (some frame)), { reader with buf := buf }, reads)
  | (.error e, buf) => (some (.error e), { reader with buf := buf }, reads)
  | (.ok none, _) =>
      match reads with
      | [] => (none, reader, [])
      | chunk :: reads =>
          let reader : FrameReader :=
            ⟨reader.buf ++ chunk, reader.bytesRead + chunk.length⟩
          if chunk = [] then
            (some (if reader.buf = [] then .ok none else .error .incomplete), reader, reads)
          else nextFrame reader reads

section NextFrame

variable {reader : FrameReader} {chunks : List Bytes}

/-- Without a complete frame in the buffer, the reader reads. -/
theorem nextFrame_read (hbuf : Frame.Incomplete reader.buf) {chunk : Bytes} (hchunk : chunk ≠ [])
    (reads : List Bytes) :
    nextFrame reader (chunk :: reads) =
      nextFrame ⟨reader.buf ++ chunk, reader.bytesRead + chunk.length⟩ reads := by
  rw [nextFrame, hbuf.decode_eq]
  exact if_neg hchunk

theorem nextFrame_wait (hbuf : Frame.Incomplete reader.buf) :
    nextFrame reader [] = (none, reader, []) := by
  rw [nextFrame, hbuf.decode_eq]

theorem nextFrame_end (hbuf : Frame.Incomplete reader.buf) (reads : List Bytes) :
    ∃ after, nextFrame reader ([] :: reads) =
      (some (if reader.buf = [] then .ok none else .error .incomplete), after, reads) ∧
      after.buf = reader.buf := by
  refine ⟨⟨reader.buf ++ [], reader.bytesRead + 0⟩, ?_, List.append_nil _⟩
  rw [nextFrame, hbuf.decode_eq]
  simp only [if_true, List.append_nil, List.length_nil]

theorem nextFrame_buffered {frame : Frame} {rest : Bytes}
    (hbuf : Frame.decode reader.buf = (.ok (some frame), rest)) (reads : List Bytes) :
    nextFrame reader reads = (some (.ok (some frame)), { reader with buf := rest }, reads) := by
  rw [nextFrame.eq_def, hbuf]

/-- The first frame of what is buffered and of what the reads return, however these are cut. -/
theorem nextFrame_of_frame (reader : FrameReader) (more : List Bytes) {frame : Frame}
    {frames : List Frame} {part : Bytes}
    (hwf : ∀ frame' ∈ frame :: frames, frame'.WellFormed) (hpart : Frame.Incomplete part)
    (hchunks : ∀ chunk ∈ chunks, chunk ≠ [])
    (hstream : reader.buf ++ chunks.flatten = Frame.encodeAll (frame :: frames) ++ part) :
    ∃ after used left, chunks = used ++ left ∧
      nextFrame reader (chunks ++ more) = (some (.ok (some frame)), after, left ++ more) ∧
      after.buf ++ left.flatten = Frame.encodeAll frames ++ part := by
  induction chunks generalizing reader with
  | nil =>
      rw [List.flatten_nil, List.append_nil, Frame.encodeAll_cons, List.append_assoc] at hstream
      have hdecode : Frame.decode reader.buf =
          (.ok (some frame), Frame.encodeAll frames ++ part) := by
        rw [hstream, Frame.decode_encode_append (hwf frame List.mem_cons_self)]
      exact ⟨_, [], [], rfl, nextFrame_buffered hdecode more, List.append_nil _⟩
  | cons chunk chunks ih =>
      obtain ⟨hchunk, hchunks⟩ := List.forall_mem_cons.mp hchunks
      obtain ⟨first, later, begun, hframes, hbuf, hrest, hbegun⟩ :=
        Frame.exists_split_of_append hwf hpart hstream
      cases first with
      | nil =>
          -- the buffer holds no complete frame: one more read
          rw [Frame.encodeAll_nil, List.nil_append] at hbuf
          rw [List.flatten_cons, ← List.append_assoc] at hstream
          obtain ⟨after, used, left, hsplit, hnext, hafter⟩ :=
            ih ⟨reader.buf ++ chunk, reader.bytesRead + chunk.length⟩ hchunks hstream
          refine ⟨after, chunk :: used, left, by rw [hsplit, List.cons_append], ?_, hafter⟩
          rw [List.cons_append, nextFrame_read (hbuf ▸ hbegun) hchunk, hnext]
      | cons head first =>
          obtain ⟨rfl, hlater⟩ := List.cons.inj hframes
          rw [Frame.encodeAll_cons, List.append_assoc] at hbuf
          have hdecode : Frame.decode reader.buf =
              (.ok (some frame), Frame.encodeAll first ++ begun) := by
            rw [hbuf, Frame.decode_encode_append (hwf frame List.mem_cons_self)]
          refine ⟨_, [], chunk :: chunks, rfl, nextFrame_buffered hdecode _, ?_⟩
          change Frame.encodeAll first ++ begun ++ _ = _
          rw [List.append_assoc, hrest, hlater]
          exact (List.append_assoc _ _ _).symm.trans
            (congrArg (· ++ part) (Frame.encodeAll_append first later).symm)

/-- What is buffered and what the reads return is only the beginning of a frame. -/
theorem nextFrame_of_begun (reader : FrameReader) (more : List Bytes)
    (hchunks : ∀ chunk ∈ chunks, chunk ≠ [])
    (hbegun : Frame.Incomplete (reader.buf ++ chunks.flatten)) :
    ∃ after, after.buf = reader.buf ++ chunks.flatten ∧
      nextFrame reader (chunks ++ more) = nextFrame after more := by
  induction chunks generalizing reader with
  | nil => exact ⟨reader, by rw [List.flatten_nil, List.append_nil], rfl⟩
  | cons chunk chunks ih =>
      obtain ⟨hchunk, hchunks⟩ := List.forall_mem_cons.mp hchunks
      rw [List.flatten_cons, ← List.append_assoc] at hbegun
      obtain ⟨after, hbuf, hnext⟩ :=
        ih ⟨reader.buf ++ chunk, reader.bytesRead + chunk.length⟩ hchunks hbegun
      refine ⟨after, by rw [hbuf, List.flatten_cons, List.append_assoc], ?_⟩
      rw [List.cons_append, nextFrame_read hbegun.of_append.of_append hchunk, hnext]

end NextFrame

end FrameReader

/-! ### A stream between them -/

namespace Framed

structure State where
  writer : FrameWriter
  /-- What was written and has not arrived. -/
  wire : Bytes
  closed : Bool
  /-- What the next reads of the socket return. -/
  reads : List Bytes
  reader : FrameReader
  /-- The frames that were queued. -/
  queued : List Frame
  /-- All bytes that arrived. -/
  arrived : Bytes
  /-- The frames that were returned, by either way of asking. -/
  returned : List Frame
  /-- The results without a frame. -/
  ends : List (Except CoreError Unit)

inductive Op where
  | queue (frame : Frame)
  | flush
  /-- The writing end goes away; of what is on the wire only the first bytes still arrive. -/
  | cut (keep : Nat)
  /-- One more byte than `len`, or what is on the wire, arrives as one read. -/
  | arrive (len : Nat)
  | hangUp
  | nextBuffered
  | nextFrame

def init : State := ⟨.new, [], false, [], .new, [], [], [], []⟩

def step (s : State) : Op → Option State
  | .queue frame =>
      if s.closed then none
      else some { s with writer := s.writer.queue frame, queued := s.queued ++ [frame] }
  | .flush =>
      if s.closed then none
      else some { s with writer := s.writer.flush.2, wire := s.wire ++ s.writer.flush.1 }
  | .cut keep =>
      if s.closed then none else some { s with closed := true, wire := s.wire.take keep }
  | .arrive len =>
      if s.wire = [] then none
      else some { s with
        wire := s.wire.drop (len + 1)
        reads := s.reads ++ [s.wire.take (len + 1)]
        arrived := s.arrived ++ s.wire.take (len + 1) }
  | .hangUp => if s.closed ∧ s.wire = [] then some { s with reads := s.reads ++ [[]] } else none
  | .nextBuffered =>
      match s.reader.nextBuffered with
      | (.ok (some frame), reader) =>
          some { s with reader := reader, returned := s.returned ++ [frame] }
      | (.ok none, reader) => some { s with reader := reader }
      | (.error e, reader) => some { s with reader := reader, ends := s.ends ++ [.error e] }
  | .nextFrame =>
      match s.reader.nextFrame s.reads with
      | (some (.ok (some frame)), reader, reads) =>
          some { s with reader := reader, reads := reads, returned := s.returned ++ [frame] }
      | (some (.ok none), reader, reads) =>
          some { s with reader := reader, reads := reads, ends := s.ends ++ [.ok ()] }
      | (some (.error e), reader, reads) =>
          some { s with reader := reader, reads := reads, ends := s.ends ++ [.error e] }
      | (none, reader, reads) => some { s with reader := reader, reads := reads }

/-- The frames are those the code builds, with payloads within the limit. -/
def Proper (_ : State) : Op → Prop
  | .queue frame => frame.WellFormed
  | _ => True

instance (s : State) : DecidablePred (Proper s)
  | .queue frame => inferInstanceAs (Decidable frame.WellFormed)
  | .flush | .cut _ | .arrive _ | .hangUp | .nextBuffered | .nextFrame => .isTrue trivial

/-- How a stream ends that leaves some bytes in the buffer. -/
def ending (part : Bytes) : Except CoreError Unit :=
  if part = [] then .ok () else .error .incomplete

/-- No byte is lost between the frames that were queued and those that were returned. -/
structure Intact (s : State) (chunks : List Bytes) (hung : Nat) (lost : Bytes)
    (later : List Frame) : Prop where
  wellFormed : ∀ frame ∈ s.queued, frame.WellFormed
  queued_eq : s.queued = s.returned ++ later
  arrived_eq : s.arrived = Frame.encodeAll s.returned ++ (s.reader.buf ++ chunks.flatten)
  sent_eq : s.arrived ++ (s.wire ++ lost) = Frame.encodeAll s.queued
  open_eq : s.closed = false → lost = s.writer.buf
  reads_eq : s.reads = chunks ++ List.replicate hung []
  chunks_ne : ∀ chunk ∈ chunks, chunk ≠ []
  hung_closed : 0 < hung → s.closed = true ∧ s.wire = []
  ended : ∀ e ∈ s.ends, s.closed = true ∧ s.wire = [] ∧ chunks = [] ∧
    Frame.Incomplete s.reader.buf ∧ e = ending s.reader.buf

theorem intact_init : Intact init [] 0 [] [] :=
  ⟨nofun, rfl, rfl, rfl, fun _ => rfl, rfl, nofun, fun h => absurd h (lt_irrefl 0), nofun⟩

section Steps

variable {s t : State} {chunks : List Bytes} {hung : Nat} {lost : Bytes} {later : List Frame}

/-- What is buffered and what the reads return is some of the frames that are due, and a beginning
of the next. -/
theorem Intact.split (h : Intact s chunks hung lost later) :
    ∃ first rest begun, later = first ++ rest ∧
      s.reader.buf ++ chunks.flatten = Frame.encodeAll first ++ begun ∧
      Frame.Incomplete begun := by
  have hstream : (s.reader.buf ++ chunks.flatten) ++ (s.wire ++ lost) =
      Frame.encodeAll later ++ [] := by
    have hsent := h.sent_eq
    rw [h.arrived_eq, h.queued_eq, Frame.encodeAll_append, List.append_assoc] at hsent
    rw [List.append_nil]
    exact List.append_cancel_left hsent
  have hwf : ∀ frame ∈ later, frame.WellFormed := fun frame hframe =>
    h.wellFormed frame (by rw [h.queued_eq]; exact List.mem_append_right _ hframe)
  obtain ⟨first, rest, begun, hlater, hbuf, _, hbegun⟩ :=
    Frame.exists_split_of_append hwf Frame.incomplete_nil hstream
  exact ⟨first, rest, begun, hlater, hbuf, hbegun⟩

theorem Intact.wellFormed_later (h : Intact s chunks hung lost later) :
    ∀ frame ∈ later, frame.WellFormed := fun frame hframe =>
  h.wellFormed frame (by rw [h.queued_eq]; exact List.mem_append_right _ hframe)

/-- One more of the frames that are due is returned. -/
theorem Intact.return {frame : Frame} (h : Intact s chunks hung lost (frame :: later))
    (reader : FrameReader) (used left : List Bytes) (hchunks : chunks = used ++ left)
    (hbuf : s.reader.buf ++ chunks.flatten = frame.encode ++ (reader.buf ++ left.flatten)) :
    Intact { s with
        reader := reader
        reads := left ++ List.replicate hung []
        returned := s.returned ++ [frame] } left hung lost later := by
  have hnone : s.ends = [] := by
    -- at an end there is no complete frame
    by_contra hends
    obtain ⟨e, he⟩ := List.exists_mem_of_ne_nil _ hends
    obtain ⟨_, _, hnil, hbegun, _⟩ := h.ended e he
    have hwf := h.wellFormed_later frame List.mem_cons_self
    rw [hnil, List.flatten_nil, List.append_nil] at hbuf
    exact hbegun.ne_encode_append hwf _ hbuf
  refine ⟨h.wellFormed, ?_, ?_, h.sent_eq, h.open_eq, rfl, ?_, h.hung_closed, ?_⟩
  · rw [h.queued_eq, List.append_assoc, List.singleton_append]
  · change s.arrived = Frame.encodeAll (s.returned ++ [frame]) ++ _
    rw [h.arrived_eq, hbuf, Frame.encodeAll_append, Frame.encodeAll_cons, Frame.encodeAll_nil,
      List.append_nil, List.append_assoc]
  · intro chunk hchunk
    exact h.chunks_ne chunk (by rw [hchunks]; exact List.mem_append_right _ hchunk)
  · intro e he
    rw [show s.ends = [] from hnone] at he
    exact absurd he List.not_mem_nil

/-- Everything that arrived is in the buffer, and it holds no complete frame. -/
theorem Intact.drained (h : Intact s chunks hung lost later)
    (hbegun : Frame.Incomplete (s.reader.buf ++ chunks.flatten)) {reader : FrameReader}
    (hbuf : reader.buf = s.reader.buf ++ chunks.flatten) {hung' : Nat} (hhung : hung' ≤ hung)
    (new : List (Except CoreError Unit))
    (hnew : ∀ e ∈ new, 0 < hung ∧ e = ending reader.buf) :
    Intact { s with
        reader := reader
        reads := List.replicate hung' []
        ends := s.ends ++ new } [] hung' lost later := by
  refine ⟨h.wellFormed, h.queued_eq, ?_, h.sent_eq, h.open_eq, rfl, nofun, ?_, ?_⟩
  · change s.arrived = _ ++ (reader.buf ++ _)
    rw [h.arrived_eq, hbuf, List.flatten_nil, List.append_nil]
  · exact fun hpos => h.hung_closed (lt_of_lt_of_le hpos hhung)
  · intro e he
    rcases List.mem_append.mp he with hold | hfresh
    · obtain ⟨hclosed, hwire, hnil, hinc, hend⟩ := h.ended e hold
      have hsame : reader.buf = s.reader.buf := by
        rw [hbuf, hnil, List.flatten_nil, List.append_nil]
      exact ⟨hclosed, hwire, rfl, by rw [hsame]; exact hinc, by rw [hsame]; exact hend⟩
    · obtain ⟨hpos, hend⟩ := hnew e hfresh
      obtain ⟨hclosed, hwire⟩ := h.hung_closed hpos
      exact ⟨hclosed, hwire, rfl, by rw [hbuf]; exact hbegun, hend⟩

/-- A complete frame that has arrived is the first of what is left. -/
theorem Intact.head (h : Intact s chunks hung lost later) {frame : Frame} {more : Bytes}
    (hwf : frame.WellFormed)
    (harrived : s.arrived = Frame.encodeAll (s.returned ++ [frame]) ++ more) :
    ∃ first rest begun, later = frame :: first ++ rest ∧
      s.reader.buf ++ chunks.flatten = Frame.encodeAll (frame :: first) ++ begun ∧
      Frame.Incomplete begun := by
  obtain ⟨first, rest, begun, rfl, hbuf, hbegun⟩ := h.split
  have hdue : s.reader.buf ++ chunks.flatten = frame.encode ++ more := by
    rw [h.arrived_eq, Frame.encodeAll_append, Frame.encodeAll_cons, Frame.encodeAll_nil,
      List.append_nil, List.append_assoc] at harrived
    exact List.append_cancel_left harrived
  cases first with
  | nil =>
      rw [Frame.encodeAll_nil, List.nil_append, hdue] at hbuf
      exact absurd hbuf.symm (hbegun.ne_encode_append hwf more)
  | cons head first =>
      have hwfHead := h.wellFormed_later head List.mem_cons_self
      have hsame := hbuf
      rw [hdue, Frame.encodeAll_cons, List.append_assoc] at hsame
      obtain ⟨rfl, _⟩ := Frame.encode_append_inj hwf hwfHead hsame
      exact ⟨first, rest, begun, rfl, hbuf, hbegun⟩

/-- The first frame that is due lies in the buffer or in the reads: asking returns it. -/
theorem Intact.next {frame : Frame} {first rest : List Frame} {begun : Bytes}
    (h : Intact s chunks hung lost (frame :: first ++ rest))
    (hbuf : s.reader.buf ++ chunks.flatten = Frame.encodeAll (frame :: first) ++ begun)
    (hbegun : Frame.Incomplete begun) :
    ∃ t left, step s .nextFrame = some t ∧ t.returned = s.returned ++ [frame] ∧
      Intact t left hung lost (first ++ rest) := by
  have hwf : ∀ due ∈ frame :: first, due.WellFormed := fun due hdue =>
    h.wellFormed_later due (List.mem_append_left _ hdue)
  obtain ⟨after, used, left, hchunks, hnext, hafter⟩ :=
    FrameReader.nextFrame_of_frame s.reader (List.replicate hung []) hwf hbegun h.chunks_ne hbuf
  rw [← h.reads_eq] at hnext
  refine ⟨{ s with
    reader := after
    reads := left ++ List.replicate hung []
    returned := s.returned ++ [frame] }, left, ?_, rfl, ?_⟩
  · rw [step, hnext]
  · apply h.return after used left hchunks
    rw [hbuf, hafter, Frame.encodeAll_cons, List.append_assoc]

/-- Nothing that is due is complete: asking ends once the writing end has hung up, and waits
before. -/
theorem Intact.wait (h : Intact s chunks hung lost later)
    (hbegun : Frame.Incomplete (s.reader.buf ++ chunks.flatten)) :
    ∃ t, step s .nextFrame = some t ∧ t.returned = s.returned ∧
      t.ends = (if 0 < hung then s.ends ++ [ending (s.reader.buf ++ chunks.flatten)] else s.ends) ∧
      ∃ hung, Intact t [] hung lost later := by
  obtain ⟨after, hafter, hnext⟩ := FrameReader.nextFrame_of_begun s.reader
    (List.replicate hung []) h.chunks_ne hbegun
  rw [← h.reads_eq] at hnext
  have hinc : Frame.Incomplete after.buf := by
    rw [hafter]
    exact hbegun
  cases hung with
  | zero =>
      rw [List.replicate_zero, FrameReader.nextFrame_wait hinc] at hnext
      have hdrained := h.drained hbegun hafter (le_refl 0) [] nofun
      rw [List.append_nil] at hdrained
      exact ⟨{ s with reader := after, reads := [] }, by rw [step, hnext], rfl, rfl, 0, hdrained⟩
  | succ hung =>
      obtain ⟨last, hend, hlast⟩ :=
        FrameReader.nextFrame_end hinc (List.replicate hung [])
      rw [List.replicate_succ, hend] at hnext
      have hdrained := h.drained hbegun (hlast.trans hafter) (Nat.le_succ hung)
        [ending last.buf] (fun e he => ⟨Nat.succ_pos _, List.mem_singleton.mp he⟩)
      refine ⟨{ s with
        reader := last
        reads := List.replicate hung []
        ends := s.ends ++ [ending last.buf] }, ?_, rfl, ?_, hung, hdrained⟩
      · rw [step, hnext]
        by_cases hempty : after.buf = []
        · simp only [if_pos hempty, ending, hlast]
        · simp only [if_neg hempty, ending, hlast]
      · rw [if_pos (Nat.succ_pos _), hlast, hafter]

theorem intact_nextFrame (h : Intact s chunks hung lost later) (hstep : step s .nextFrame = some t) :
    ∃ chunks hung later, Intact t chunks hung lost later := by
  obtain ⟨first, rest, begun, hlater, hbuf, hbegun⟩ := h.split
  cases first with
  | nil =>
      rw [Frame.encodeAll_nil, List.nil_append] at hbuf
      obtain ⟨u, hu, _, _, hung, hintact⟩ := h.wait (hbuf ▸ hbegun)
      rw [hstep] at hu
      obtain rfl := Option.some.inj hu
      exact ⟨[], hung, later, hintact⟩
  | cons frame first =>
      obtain ⟨u, left, hu, _, hintact⟩ := Intact.next (hlater ▸ h) hbuf hbegun
      rw [hstep] at hu
      obtain rfl := Option.some.inj hu
      exact ⟨left, hung, first ++ rest, hintact⟩

theorem intact_nextBuffered (h : Intact s chunks hung lost later)
    (hstep : step s .nextBuffered = some t) : ∃ later, Intact t chunks hung lost later := by
  have hstream : s.reader.buf ++ (chunks.flatten ++ (s.wire ++ lost)) =
      Frame.encodeAll later ++ [] := by
    have hsent := h.sent_eq
    rw [h.arrived_eq, h.queued_eq, Frame.encodeAll_append, List.append_assoc] at hsent
    rw [List.append_nil, ← List.append_assoc]
    exact List.append_cancel_left hsent
  obtain ⟨first, rest, begun, rfl, hbuf, _, hbegun⟩ :=
    Frame.exists_split_of_append h.wellFormed_later Frame.incomplete_nil hstream
  cases first with
  | nil =>
      rw [Frame.encodeAll_nil, List.nil_append] at hbuf
      rw [step, FrameReader.nextBuffered, (hbuf ▸ hbegun : Frame.Incomplete s.reader.buf).decode_eq]
        at hstep
      obtain rfl := Option.some.inj hstep
      exact ⟨_, h⟩
  | cons frame first =>
      have hwf : frame.WellFormed := h.wellFormed_later frame List.mem_cons_self
      rw [Frame.encodeAll_cons, List.append_assoc] at hbuf
      rw [step, FrameReader.nextBuffered, hbuf, Frame.decode_encode_append hwf] at hstep
      obtain rfl := Option.some.inj hstep
      have hreturned := h.return ⟨Frame.encodeAll first ++ begun, s.reader.bytesRead⟩ [] chunks rfl
        (by rw [hbuf, List.append_assoc])
      rw [← h.reads_eq] at hreturned
      exact ⟨_, hreturned⟩

theorem step_queue {frame : Frame} (hstep : step s (.queue frame) = some t) :
    s.closed = false ∧ t = { s with
      writer := s.writer.queue frame
      queued := s.queued ++ [frame] } := by
  rw [step] at hstep
  split_ifs at hstep with hclosed
  exact ⟨Bool.eq_false_iff.mpr hclosed, (Option.some.inj hstep).symm⟩

theorem step_flush (hstep : step s .flush = some t) :
    s.closed = false ∧ t = { s with
      writer := s.writer.flush.2
      wire := s.wire ++ s.writer.flush.1 } := by
  rw [step] at hstep
  split_ifs at hstep with hclosed
  exact ⟨Bool.eq_false_iff.mpr hclosed, (Option.some.inj hstep).symm⟩

theorem step_cut {keep : Nat} (hstep : step s (.cut keep) = some t) :
    s.closed = false ∧ t = { s with closed := true, wire := s.wire.take keep } := by
  rw [step] at hstep
  split_ifs at hstep with hclosed
  exact ⟨Bool.eq_false_iff.mpr hclosed, (Option.some.inj hstep).symm⟩

theorem step_arrive {len : Nat} (hstep : step s (.arrive len) = some t) :
    s.wire ≠ [] ∧ t = { s with
      wire := s.wire.drop (len + 1)
      reads := s.reads ++ [s.wire.take (len + 1)]
      arrived := s.arrived ++ s.wire.take (len + 1) } := by
  rw [step] at hstep
  split_ifs at hstep with hempty
  exact ⟨hempty, (Option.some.inj hstep).symm⟩

theorem step_hangUp (hstep : step s .hangUp = some t) :
    (s.closed = true ∧ s.wire = []) ∧ t = { s with reads := s.reads ++ [[]] } := by
  rw [step] at hstep
  split_ifs at hstep with hclosed
  exact ⟨hclosed, (Option.some.inj hstep).symm⟩

theorem Intact.not_ended (h : Intact s chunks hung lost later) (hopen : s.closed = false)
    {e : Except CoreError Unit} : e ∉ s.ends := by
  intro he
  rw [(h.ended e he).1] at hopen
  cases hopen

theorem Intact.not_hung (h : Intact s chunks hung lost later) (hopen : s.closed = false) :
    ¬ 0 < hung := by
  intro hpos
  rw [(h.hung_closed hpos).1] at hopen
  cases hopen

theorem Intact.queue (h : Intact s chunks hung lost later) (hopen : s.closed = false)
    {frame : Frame} (hwf : frame.WellFormed) :
    Intact { s with writer := s.writer.queue frame, queued := s.queued ++ [frame] }
      chunks hung (lost ++ frame.encode) (later ++ [frame]) where
  wellFormed other hother := by
    rcases List.mem_append.mp hother with hold | hnew
    · exact h.wellFormed other hold
    · rw [List.mem_singleton.mp hnew]
      exact hwf
  queued_eq := by rw [h.queued_eq, List.append_assoc]
  arrived_eq := h.arrived_eq
  sent_eq := by
    rw [Frame.encodeAll_append, ← h.sent_eq, Frame.encodeAll_cons, Frame.encodeAll_nil,
      List.append_nil]
    simp only [List.append_assoc]
  open_eq _ := by
    rw [h.open_eq hopen]
    rfl
  reads_eq := h.reads_eq
  chunks_ne := h.chunks_ne
  hung_closed := h.hung_closed
  ended _ he := absurd he (h.not_ended hopen)

theorem Intact.flush (h : Intact s chunks hung lost later) (hopen : s.closed = false) :
    Intact { s with writer := s.writer.flush.2, wire := s.wire ++ s.writer.flush.1 }
      chunks hung [] later where
  wellFormed := h.wellFormed
  queued_eq := h.queued_eq
  arrived_eq := h.arrived_eq
  sent_eq := by
    rw [← h.sent_eq, List.append_nil, h.open_eq hopen]
    rfl
  open_eq _ := rfl
  reads_eq := h.reads_eq
  chunks_ne := h.chunks_ne
  hung_closed hpos := absurd hpos (h.not_hung hopen)
  ended _ he := absurd he (h.not_ended hopen)

/-- The writing end takes with it what no longer arrives. -/
theorem Intact.cut (h : Intact s chunks hung lost later) (hopen : s.closed = false) (keep : Nat) :
    Intact { s with closed := true, wire := s.wire.take keep }
      chunks hung (s.wire.drop keep ++ lost) later where
  wellFormed := h.wellFormed
  queued_eq := h.queued_eq
  arrived_eq := h.arrived_eq
  sent_eq := by rw [← List.append_assoc (s.wire.take keep), List.take_append_drop, h.sent_eq]
  open_eq := nofun
  reads_eq := h.reads_eq
  chunks_ne := h.chunks_ne
  hung_closed hpos := absurd hpos (h.not_hung hopen)
  ended _ he := absurd he (h.not_ended hopen)

theorem Intact.arrive (h : Intact s chunks hung lost later) (hne : s.wire ≠ []) (len : Nat) :
    Intact { s with
      wire := s.wire.drop (len + 1)
      reads := s.reads ++ [s.wire.take (len + 1)]
      arrived := s.arrived ++ s.wire.take (len + 1) }
      (chunks ++ [s.wire.take (len + 1)]) 0 lost later := by
  obtain rfl : hung = 0 := by
    by_contra hpos
    exact hne (h.hung_closed (Nat.pos_of_ne_zero hpos)).2
  refine ⟨h.wellFormed, h.queued_eq, ?_, ?_, h.open_eq, ?_, ?_,
    fun hpos => absurd hpos (lt_irrefl 0), fun e he => absurd (h.ended e he).2.1 hne⟩
  · rw [h.arrived_eq, List.flatten_append, List.flatten_singleton]
    simp only [List.append_assoc]
  · rw [← h.sent_eq, List.append_assoc, ← List.append_assoc (s.wire.take _),
      List.take_append_drop]
  · rw [h.reads_eq, List.replicate_zero, List.append_nil, List.append_nil]
  · intro chunk hchunk
    rcases List.mem_append.mp hchunk with hold | hnew
    · exact h.chunks_ne chunk hold
    · rw [List.mem_singleton.mp hnew]
      intro hnil
      rcases List.take_eq_nil_iff.mp hnil with hzero | hwire
      · cases hzero
      · exact hne hwire

theorem Intact.hangUp (h : Intact s chunks hung lost later)
    (hclosed : s.closed = true ∧ s.wire = []) :
    Intact { s with reads := s.reads ++ [[]] } chunks (hung + 1) lost later := by
  refine ⟨h.wellFormed, h.queued_eq, h.arrived_eq, h.sent_eq, h.open_eq, ?_, h.chunks_ne,
    fun _ => hclosed, h.ended⟩
  rw [h.reads_eq, List.append_assoc, List.replicate_succ']

theorem intact_step (op : Op) (hintact : ∃ chunks hung lost later, Intact s chunks hung lost later)
    (hproper : Proper s op) (hstep : step s op = some t) :
    ∃ chunks hung lost later, Intact t chunks hung lost later := by
  obtain ⟨chunks, hung, lost, later, h⟩ := hintact
  cases op with
  | queue frame =>
      obtain ⟨hopen, rfl⟩ := step_queue hstep
      exact ⟨_, _, _, _, h.queue hopen hproper⟩
  | flush =>
      obtain ⟨hopen, rfl⟩ := step_flush hstep
      exact ⟨_, _, _, _, h.flush hopen⟩
  | cut keep =>
      obtain ⟨hopen, rfl⟩ := step_cut hstep
      exact ⟨_, _, _, _, h.cut hopen keep⟩
  | arrive len =>
      obtain ⟨hne, rfl⟩ := step_arrive hstep
      exact ⟨_, _, _, _, h.arrive hne len⟩
  | hangUp =>
      obtain ⟨hclosed, rfl⟩ := step_hangUp hstep
      exact ⟨_, _, _, _, h.hangUp hclosed⟩
  | nextBuffered =>
      obtain ⟨later, hintact⟩ := intact_nextBuffered h hstep
      exact ⟨chunks, hung, lost, later, hintact⟩
  | nextFrame =>
      obtain ⟨chunks, hung, later, hintact⟩ := intact_nextFrame h hstep
      exact ⟨chunks, hung, lost, later, hintact⟩

end Steps

/-- **Segmentation.** However the bytes are cut into reads, and however the reader is asked: the
frames returned are the first of those queued; a stream only ends with no complete frame left, clean
between frames and incomplete within one; while a complete frame has arrived asking returns it, and
once all has arrived and the writing end is gone asking ends. -/
theorem frames_in_order {ops : List Op} {s : State} (hrun : Run step Proper init ops s) :
    (∃ lost, s.arrived ++ (s.wire ++ lost) = Frame.encodeAll s.queued ∧
      (s.closed = false → lost = s.writer.buf)) ∧
    (∃ later, s.queued = s.returned ++ later) ∧
    (∀ e ∈ s.ends, ∃ part, s.arrived = Frame.encodeAll s.returned ++ part ∧ s.wire = [] ∧
      Frame.Incomplete part ∧ e = ending part) ∧
    (∀ frame more, frame.WellFormed →
      s.arrived = Frame.encodeAll (s.returned ++ [frame]) ++ more →
      ∃ t, step s .nextFrame = some t ∧ t.returned = s.returned ++ [frame]) ∧
    (∀ part, s.arrived = Frame.encodeAll s.returned ++ part → Frame.Incomplete part →
      s.closed = true → s.wire = [] →
      ∃ t u, step s .hangUp = some t ∧ step t .nextFrame = some u ∧ u.returned = s.returned ∧
        u.ends = s.ends ++ [ending part]) := by
  obtain ⟨chunks, hung, lost, later, h⟩ :=
    hrun.invariant (p := fun s => ∃ chunks hung lost later, Intact s chunks hung lost later)
      (fun _ op _ hs hproper hstep => intact_step op hs hproper hstep)
      ⟨[], 0, [], [], intact_init⟩
  refine ⟨⟨lost, h.sent_eq, h.open_eq⟩, ⟨later, h.queued_eq⟩, ?_, ?_, ?_⟩
  · intro e he
    obtain ⟨_, hwire, hnil, hbegun, hend⟩ := h.ended e he
    refine ⟨s.reader.buf, ?_, hwire, hbegun, hend⟩
    rw [h.arrived_eq, hnil, List.flatten_nil, List.append_nil]
  · intro frame more hwf harrived
    obtain ⟨first, rest, begun, rfl, hbuf, hbegun⟩ := h.head hwf harrived
    obtain ⟨t, left, hstep, hreturned, _⟩ := h.next hbuf hbegun
    exact ⟨t, hstep, hreturned⟩
  · intro part harrived hpart hclosed hwire
    have hbuf : s.reader.buf ++ chunks.flatten = part := by
      rw [h.arrived_eq] at harrived
      exact List.append_cancel_left harrived
    have hhung : step s .hangUp = some { s with reads := s.reads ++ [[]] } := by
      rw [step, if_pos ⟨hclosed, hwire⟩]
    have hafter := h.hangUp ⟨hclosed, hwire⟩
    obtain ⟨u, hu, hreturned, hends, _⟩ := hafter.wait (by rw [hbuf]; exact hpart)
    rw [if_pos (Nat.succ_pos _), hbuf] at hends
    exact ⟨_, u, hhung, hu, hreturned, hends⟩

/-- The reads of a call's client: the notification in two of them, the result in two, and of the
frame behind them only a beginning, before the server is gone. -/
def callOps (notified result last : Frame) : List Op :=
  [.queue notified, .queue result, .flush, .arrive 9, .nextFrame, .arrive 39, .nextFrame,
    .nextBuffered, .queue last, .flush, .cut 46, .arrive 99, .nextBuffered, .nextFrame]

theorem frames_in_order_call :
    let notified : Frame := .new .progress 1 (List.replicate 20 7)
    let result : Frame := .new .callToolResult 1 (List.replicate 30 8)
    ∃ s t u, Run step Proper init (callOps notified result (.new .pong 2 [1, 2])) s ∧
      s.returned = [notified, result] ∧
      step s .hangUp = some t ∧ step t .nextFrame = some u ∧ u.returned = [notified, result] ∧
      u.ends = [.error .incomplete] := by
  intro notified result
  let last : Frame := .new .pong 2 [1, 2]
  have hexec : (exec step (fun s op => decide (Proper s op)) init
      (callOps notified result last)).map
      (fun s => ((s.returned, s.arrived), (s.closed, s.wire), s.ends.length)) =
      some (([notified, result], Frame.encodeAll [notified, result] ++ last.encode.take 12),
        (true, []), 0) := by
    decide +kernel
  obtain ⟨s, hs, hview⟩ := Option.map_eq_some_iff.mp hexec
  simp only [Prod.mk.injEq] at hview
  obtain ⟨⟨hreturned, harrived⟩, ⟨hclosed, hwire⟩, hends⟩ := hview
  have hrun : Run step Proper init (callOps notified result last) s :=
    (run_of_exec hs).weaken fun _ _ => of_decide_eq_true
  have hpart : Frame.Incomplete (last.encode.take 12) :=
    ⟨last, last.encode.drop 12, by decide, List.take_append_drop _ _, by decide⟩
  obtain ⟨t, u, hung, hnext, hkept, hended⟩ := (frames_in_order hrun).2.2.2.2 (last.encode.take 12)
    (by rw [harrived, hreturned]) hpart hclosed hwire
  refine ⟨s, t, u, hrun, hreturned, hung, hnext, hkept.trans hreturned, ?_⟩
  rw [hended, List.length_eq_zero_iff.mp hends]
  rfl

end Framed

end Ohmcp
