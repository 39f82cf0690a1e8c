import Ohmcp.Session
import Ohmcp.FrameCodec

/-! The loop of `handle_conn`: complete frames in the read buffer are handled one after another and
their responses only queued; when the buffer runs dry the writer is flushed once, and the session
waits for a read, a resource event or the shutdown signal. -/

namespace Ohmcp

variable [Externals]

/-- What happens around one connection: the surroundings of its `n`-th frame, and what the other
connections did to the shared state before it. -/
structure World where
  env : Nat → Environment
  others : Nat → Shared → Shared

/-- Surroundings in which no time passes and no other connection does anything. -/
def World.still : World where
  env _ := {
    now := 0, putNow := 0, occasion := 0, order := []
    eph := ⟨.zeros⟩
    noncePrefix := [0, 0, 0, 0], noncePrefix_length := rfl
    ringMade := true, upRingMade := true, dupMade := true
    downFdSent := true, upFdSent := true, declineSent := true }
  others _ shared := shared

structure Conn where
  shared : Shared
  session : Session
  /-- The reader's buffer. -/
  buf : Bytes
  /-- The writer's buffer. -/
  out : Bytes
  /-- What the socket was given. -/
  sent : Bytes
  /-- The number of frames handled. -/
  turn : Nat
  flow : Flow

namespace Conn

omit [Externals] in
def new (shared : Shared) : Conn := ⟨shared, .new shared.token, [], [], [], 0, .next⟩

omit [Externals] in
def flush (conn : Conn) : Conn := { conn with sent := conn.sent ++ conn.out, out := [] }

omit [Externals] in
def act (conn : Conn) : Action → Conn
  | .queue frame => { conn with out := conn.out ++ frame.encode }
  | .flush => conn.flush
  | .rawByte byte => { conn with sent := conn.sent ++ [byte] }

/-- The handling of the next frame. -/
def handled (world : World) (conn : Conn) (frame : Frame) : Handled :=
  handleFrame (world.env conn.turn) (world.others conn.turn conn.shared) conn.session frame

/-- One pass of the session loop, with what is left in the buffer. -/
def handle (world : World) (conn : Conn) (frame : Frame) (rest : Bytes) : Conn :=
  let handled := conn.handled world frame
  let conn := { conn with
    shared := handled.shared
    session := handled.session
    buf := rest
    turn := conn.turn + 1
    flow := handled.flow }
  handled.actions.foldl act conn

omit [Externals] in
/-- A propagated error leaves the writer's buffer as it is. -/
def fail (conn : Conn) (failure : Failure) : Conn := { conn with flow := .failed failure }

omit [Externals] in
@[simp] theorem act_buf (conn : Conn) (action : Action) : (conn.act action).buf = conn.buf := by
  cases action <;> rfl

omit [Externals] in
@[simp] theorem foldl_act_buf (actions : List Action) (conn : Conn) :
    (actions.foldl act conn).buf = conn.buf := by
  induction actions generalizing conn with
  | nil => rfl
  | cons action actions ih => rw [List.foldl_cons, ih, act_buf]

@[simp] theorem handle_buf (world : World) (conn : Conn) (frame : Frame) (rest : Bytes) :
    (conn.handle world frame rest).buf = rest := foldl_act_buf _ _

/-- Handles the complete frames of the buffer, then flushes and waits. -/
def drain (world : World) (conn : Conn) : Conn :=
  if conn.flow = .next then
    match _hdecode : Frame.decode conn.buf with
    | (.ok (some frame), rest) => (conn.handle world frame rest).drain world
    | (.ok .none, _) => conn.flush
    | (.error e, _) => conn.fail (.core e)
  else conn
termination_by conn.buf.length
decreasing_by
  rw [handle_buf]
  exact Frame.length_lt_of_decode _hdecode

/-- What the session is woken by. -/
inductive Input where
  /-- A read of no bytes is the end of the stream. -/
  | read (chunk : Bytes)
  | shutdown
  | event (event : ResourceEvent)

/-- The wait for the next frame is resumed with more bytes. -/
def receive (world : World) (conn : Conn) (chunk : Bytes) : Conn :=
  let conn := { conn with buf := conn.buf ++ chunk }
  match Frame.decode conn.buf with
  | (.ok (some frame), rest) => (conn.handle world frame rest).drain world
  | (.ok .none, _) => conn
  | (.error e, _) => conn.fail (.core e)

omit [Externals] in
/-- The end of the stream: clean only between frames. -/
def close (conn : Conn) : Conn :=
  if conn.buf = [] then { conn.flush with flow := .returned } else conn.fail (.core .incomplete)

/-- The notification a resource event leads to. -/
def notification (session : Session) : ResourceEvent → Option (Frame × PayloadPipeline)
  | .updated uri =>
      if uri ∈ session.subscribed then
        some (session.pipeline.wrap .resourceUpdated 0
          (Externals.toVec .resourceUpdatedParams ⟨uri⟩))
      else none
  | .listChanged =>
      if session.authenticated then
        some (session.pipeline.wrap .resourceListChanged 0 (utf8 "{}"))
      else none

def notify (conn : Conn) (event : ResourceEvent) : Conn :=
  match notification conn.session event with
  | some (frame, pipeline) =>
      let conn := { conn with session := { conn.session with pipeline := pipeline } }
      (conn.act (.queue frame)).flush
  | none => conn

/-- One step of a session that waits. A session that has ended takes no more. -/
def wake (world : World) (conn : Conn) (input : Input) : Conn :=
  if conn.flow = .next then
    match input with
    | .read chunk => if chunk = [] then conn.close else conn.receive world chunk
    | .shutdown => { conn.flush with flow := .returned }
    | .event event => conn.notify event
  else conn

/-! ### Frames that are handled without an end of the session -/

/-- The state a frame is handled in. -/
structure Core where
  shared : Shared
  session : Session
  turn : Nat

omit [Externals] in
def core (conn : Conn) : Core := ⟨conn.shared, conn.session, conn.turn⟩

namespace Core

def handled (world : World) (core : Core) (frame : Frame) : Handled :=
  handleFrame (world.env core.turn) (world.others core.turn core.shared) core.session frame

def next (world : World) (core : Core) (frame : Frame) : Core :=
  ⟨(core.handled world frame).shared, (core.handled world frame).session, core.turn + 1⟩

/-- The state after a list of frames. -/
def run (world : World) (core : Core) (frames : List Frame) : Core := frames.foldl (next world) core

end Core

omit [Externals] in
/-- The frames among the actions. -/
def queued (actions : List Action) : List Frame :=
  actions.filterMap fun
    | .queue frame => some frame
    | _ => none

/-- What each of a list of frames is answered with. -/
def replies (world : World) : Core → List Frame → List (List Frame)
  | _, [] => []
  | core, frame :: frames =>
      queued (core.handled world frame).actions :: replies world (core.next world frame) frames

omit [Externals] in
theorem foldl_act_queue (frames : List Frame) (conn : Conn) :
    (frames.map Action.queue).foldl act conn =
      { conn with out := conn.out ++ Frame.encodeAll frames } := by
  induction frames generalizing conn with
  | nil => simp
  | cons frame frames ih => simp [ih, act]

omit [Externals] in
@[simp] theorem queued_map_queue (frames : List Frame) :
    queued (frames.map Action.queue) = frames := by
  induction frames with
  | nil => rfl
  | cons frame frames ih => exact congrArg (frame :: ·) ih

/-- Handling a frame queues its responses and does nothing else to the socket, and the session goes
on. -/
def Quiet (handled : Handled) : Prop :=
  handled.flow = .next ∧ ∃ frames : List Frame, handled.actions = frames.map Action.queue

theorem handle_of_quiet {world : World} {conn : Conn} {frame : Frame} (rest : Bytes)
    (hquiet : Quiet (conn.core.handled world frame)) :
    conn.handle world frame rest =
      { shared := (conn.core.next world frame).shared
        session := (conn.core.next world frame).session
        buf := rest
        out := conn.out ++ Frame.encodeAll (queued (conn.core.handled world frame).actions)
        sent := conn.sent
        turn := conn.turn + 1
        flow := .next } := by
  obtain ⟨hflow, frames, hactions⟩ := hquiet
  have hsame : conn.handled world frame = conn.core.handled world frame := rfl
  unfold handle
  dsimp only
  rw [hsame, hactions, foldl_act_queue, queued_map_queue, hflow]
  rfl

/-- All frames of a list are handled so, each in the state it is handled in. -/
def AllQuiet (world : World) : Core → List Frame → Prop
  | _, [] => True
  | core, frame :: frames =>
      Quiet (core.handled world frame) ∧ AllQuiet world (core.next world frame) frames

/-- A session that waits: everything queued is written, and a frame has begun at most. -/
structure Waits (conn : Conn) : Prop where
  flow_eq : conn.flow = .next
  out_eq : conn.out = []
  begun : Frame.Incomplete conn.buf

/-- The session after a list of frames: their replies are written, and it waits with the beginning
of another frame. -/
def after (world : World) (conn : Conn) (frames : List Frame) (begun : Bytes) : Conn where
  shared := (conn.core.run world frames).shared
  session := (conn.core.run world frames).session
  buf := begun
  out := []
  sent := conn.sent ++ conn.out ++ Frame.encodeAll (replies world conn.core frames).flatten
  turn := (conn.core.run world frames).turn
  flow := .next

theorem after_cons {world : World} {conn : Conn} {frame : Frame} {frames : List Frame}
    {rest begun : Bytes} (hquiet : Quiet (conn.core.handled world frame)) :
    (conn.handle world frame rest).after world frames begun =
      conn.after world (frame :: frames) begun := by
  rw [handle_of_quiet rest hquiet]
  simp only [after, replies, List.flatten_cons, Frame.encodeAll_append, List.append_assoc]
  rfl

theorem core_handle {world : World} {conn : Conn} {frame : Frame} (rest : Bytes)
    (hquiet : Quiet (conn.core.handled world frame)) :
    (conn.handle world frame rest).core = conn.core.next world frame := by
  rw [handle_of_quiet rest hquiet]
  rfl

/-- The buffer holds some frames and a beginning: after `drain` they are handled and everything
queued is written. -/
theorem drain_eq {world : World} {frames : List Frame} {begun : Bytes} {conn : Conn}
    (hwf : ∀ frame ∈ frames, frame.WellFormed) (hbegun : Frame.Incomplete begun)
    (hquiet : AllQuiet world conn.core frames) (hflow : conn.flow = .next)
    (hbuf : conn.buf = Frame.encodeAll frames ++ begun) :
    conn.drain world = conn.after world frames begun := by
  induction frames generalizing conn with
  | nil =>
      rw [Frame.encodeAll_nil, List.nil_append] at hbuf
      rw [drain, if_pos hflow]
      split
      · next hdecode => rw [hbuf, hbegun.decode_eq] at hdecode; cases hdecode
      · simp only [flush, after, replies, List.flatten_nil, Frame.encodeAll_nil, List.append_nil,
          hflow, hbuf]
        rfl
      · next hdecode => rw [hbuf, hbegun.decode_eq] at hdecode; cases hdecode
  | cons frame frames ih =>
      obtain ⟨hframe, hframes⟩ := List.forall_mem_cons.mp hwf
      obtain ⟨hfirst, hrest⟩ := hquiet
      have hdecoded : Frame.decode conn.buf =
          (.ok (some frame), Frame.encodeAll frames ++ begun) := by
        rw [hbuf, Frame.encodeAll_cons, List.append_assoc, Frame.decode_encode_append hframe]
      rw [drain, if_pos hflow]
      split
      · next hdecode =>
          rw [hdecoded] at hdecode
          cases hdecode
          rw [ih hframes (core_handle _ hfirst ▸ hrest) (by rw [handle_of_quiet _ hfirst])
            (handle_buf ..), after_cons hfirst]
      · next hdecode => rw [hdecoded] at hdecode; cases hdecode
      · next hdecode => rw [hdecoded] at hdecode; cases hdecode

/-- A read that completes some frames: all of them are handled and their responses are written. -/
theorem receive_eq {world : World} {frames : List Frame} {chunk begun : Bytes} {conn : Conn}
    (hwf : ∀ frame ∈ frames, frame.WellFormed) (hbegun : Frame.Incomplete begun)
    (hquiet : AllQuiet world conn.core frames) (hwaits : conn.Waits)
    (hbuf : conn.buf ++ chunk = Frame.encodeAll frames ++ begun) :
    conn.receive world chunk = conn.after world frames begun := by
  cases frames with
  | nil =>
      rw [Frame.encodeAll_nil, List.nil_append] at hbuf
      unfold receive
      dsimp only
      rw [hbuf, hbegun.decode_eq]
      simp only [after, replies, List.flatten_nil, Frame.encodeAll_nil, List.append_nil,
        hwaits.flow_eq, hwaits.out_eq]
      rfl
  | cons frame frames =>
      obtain ⟨hframe, hframes⟩ := List.forall_mem_cons.mp hwf
      obtain ⟨hfirst, hrest⟩ := hquiet
      rw [Frame.encodeAll_cons, List.append_assoc] at hbuf
      unfold receive
      dsimp only
      rw [hbuf, Frame.decode_encode_append hframe]
      change (conn.handle world frame (Frame.encodeAll frames ++ begun)).drain world = _
      rw [drain_eq hframes hbegun (core_handle _ hfirst ▸ hrest)
        (by rw [handle_of_quiet _ hfirst]) (handle_buf ..), after_cons hfirst]

end Conn

end Ohmcp
