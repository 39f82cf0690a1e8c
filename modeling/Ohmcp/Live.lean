import Ohmcp.Effects
import Ohmcp.Transition
import Ohmcp.Broadcast

/-! One session in its surroundings: frames come in, resources are updated by other threads at any
moment, and the session takes a resource event only while it waits for input. The state keeps the
history of what was handled and what was notified. -/

open Transition

namespace Ohmcp

variable [Externals]

namespace Live

/-- What goes to the socket. -/
inductive Item where
  | frame (frame : Frame)
  | raw (byte : UInt8)
  deriving DecidableEq

omit [Externals] in
def framesOf (items : List Item) : List Frame :=
  items.filterMap fun
    | .frame frame => some frame
    | .raw _ => none

/-- One turn of the session, in the state before it; a notification is for the event of a given
number. -/
inductive Entry where
  | handled (env : Environment) (shared : Shared) (session : Session) (frame : Frame)
  | notified (session : Session) (index : Nat) (event : ResourceEvent) (frame : Frame)

namespace Entry

def frames : Entry → List Frame
  | handled env shared session frame =>
      Conn.queued (handleFrame env shared session frame).actions
  | notified _ _ _ frame => [frame]

end Entry

def eventCapacity : Nat := 64

structure State where
  shared : Shared
  session : Session
  flow : Flow
  /-- The buffer is dry and everything queued is written. -/
  waiting : Bool
  events : Broadcast.Receiver ResourceEvent eventCapacity
  /-- The updates whose content is written and whose event is not yet sent. -/
  pending : List ResourceEvent
  queued : List Frame
  wire : List Item
  log : List Entry

namespace State

omit [Externals] in
/-- A session begins while some events were sent already, to others. -/
def start (shared : Shared) (past pending : List ResourceEvent) : State where
  shared := shared
  session := .new shared.token
  flow := .next
  waiting := false
  events := .subscribe past
  pending := pending
  queued := []
  wire := []
  log := []

omit [Externals] in
/-- Everything queued so far, written or not. -/
def frames (s : State) : List Frame := framesOf s.wire ++ s.queued

omit [Externals] in
def flush (s : State) : State := { s with wire := s.wire ++ s.queued.map .frame, queued := [] }

omit [Externals] in
def act (s : State) : Action → State
  | .queue frame => { s with queued := s.queued ++ [frame] }
  | .flush => s.flush
  | .rawByte byte => { s with wire := s.wire ++ [.raw byte] }

def handle (s : State) (env : Environment) (frame : Frame) : State :=
  let handled := handleFrame env s.shared s.session frame
  handled.actions.foldl act { s with
    shared := handled.shared
    session := handled.session
    flow := handled.flow
    waiting := false
    log := s.log ++ [.handled env s.shared s.session frame] }

/-- `resource_events.recv()`: an event the session has no use for is dropped, and so is the error
that tells of lost ones. -/
def poll (s : State) : State :=
  match s.events.recv with
  | (.message index event, events) =>
      match Conn.notification s.session event with
      | some (frame, pipeline) =>
          { s with
            events := events
            session := { s.session with pipeline := pipeline }
            queued := s.queued ++ [frame]
            log := s.log ++ [Entry.notified s.session index event frame] }.flush
      | none => { s with events := events }
  | (_, events) => { s with events := events }

end State

/-- Frames that come in, the moments of the session between them, and what the other threads do: an
update of a resource writes its content, by `write` or `add`, before it sends the event. -/
inductive Op where
  | frame (env : Environment) (frame : Frame)
  | dry
  | poll
  /-- The session ends by the end of the stream, by bytes that are no frame or by the shutdown. -/
  | stop (flow : Flow)
  | write (uri text : String)
  | add (uri name mime text : String)
  | send (event : ResourceEvent)
  | others (cache : ResultCache) (acl : ToolAcl)

def step (s : State) : Op → Option State
  | .frame env frame => if s.flow = .next then some (s.handle env frame) else none
  | .dry =>
      if s.flow = .next ∧ s.waiting = false then some { s.flush with waiting := true } else none
  | .poll => if s.flow = .next ∧ s.waiting = true then some s.poll else none
  | .stop flow => if s.flow = .next ∧ flow ≠ .next then some { s with flow := flow } else none
  | .write uri text =>
      let (_, event, registry) := s.shared.registry.updateResource uri text
      some { s with
        shared := { s.shared with registry := registry }, pending := s.pending ++ event.toList }
  | .add uri name mime text =>
      let (event, registry) := s.shared.registry.addResource uri name mime text
      some { s with
        shared := { s.shared with registry := registry }, pending := s.pending ++ [event] }
  | .send event =>
      if event ∈ s.pending then
        some { s with pending := s.pending.erase event, events := s.events.send event }
      else none
  | .others cache acl => some { s with shared := { s.shared with cache := cache, acl := acl } }

/-! ### What a step does -/

omit [Externals] in
@[simp] theorem framesOf_append (items items' : List Item) :
    framesOf (items ++ items') = framesOf items ++ framesOf items' := List.filterMap_append

omit [Externals] in
@[simp] theorem framesOf_map_frame (frames : List Frame) :
    framesOf (frames.map Item.frame) = frames := by
  induction frames with
  | nil => rfl
  | cons frame frames ih => exact congrArg (frame :: ·) ih

section Steps

variable {s t : State} {op : Op}

omit [Externals] in
@[simp] theorem State.frames_flush (s : State) : s.flush.frames = s.frames := by
  rw [frames, flush, frames, framesOf_append, framesOf_map_frame, List.append_nil]

omit [Externals] in
theorem State.frames_act (s : State) (action : Action) :
    (s.act action).frames = s.frames ++ Conn.queued [action] := by
  cases action with
  | queue frame =>
      change framesOf s.wire ++ (s.queued ++ [frame]) = framesOf s.wire ++ s.queued ++ [frame]
      rw [List.append_assoc]
  | flush =>
      change s.flush.frames = s.frames ++ []
      rw [frames_flush, List.append_nil]
  | rawByte byte =>
      change framesOf (s.wire ++ [.raw byte]) ++ s.queued = s.frames ++ []
      rw [framesOf_append, List.append_nil, frames]
      exact congrArg (· ++ s.queued) (List.append_nil _)

omit [Externals] in
/-- Actions reach the writer only. -/
theorem State.foldl_act (actions : List Action) (s : State) :
    ∃ queued wire, actions.foldl act s = { s with queued := queued, wire := wire } ∧
      framesOf wire ++ queued = s.frames ++ Conn.queued actions := by
  induction actions generalizing s with
  | nil => exact ⟨s.queued, s.wire, rfl, (List.append_nil _).symm⟩
  | cons action actions ih =>
      obtain ⟨queued, wire, hfold, hframes⟩ := ih (s.act action)
      have hact : s.act action =
          { s with queued := (s.act action).queued, wire := (s.act action).wire } := by
        cases action <;> rfl
      refine ⟨queued, wire, ?_, ?_⟩
      · rw [List.foldl_cons, hfold, hact]
      · rw [hframes, State.frames_act, List.append_assoc]
        exact congrArg _ (List.filterMap_append (l := [action])).symm

/-- The session after a frame is what `handleFrame` makes of it. -/
theorem State.handle_eq (s : State) (env : Environment) (frame : Frame) :
    ∃ queued wire, s.handle env frame = { s with
        shared := (handleFrame env s.shared s.session frame).shared
        session := (handleFrame env s.shared s.session frame).session
        flow := (handleFrame env s.shared s.session frame).flow
        waiting := false
        log := s.log ++ [.handled env s.shared s.session frame]
        queued := queued
        wire := wire } ∧
      framesOf wire ++ queued =
        s.frames ++ (Entry.handled env s.shared s.session frame).frames := by
  obtain ⟨queued, wire, hfold, hframes⟩ := State.foldl_act
    (handleFrame env s.shared s.session frame).actions { s with
      shared := (handleFrame env s.shared s.session frame).shared
      session := (handleFrame env s.shared s.session frame).session
      flow := (handleFrame env s.shared s.session frame).flow
      waiting := false
      log := s.log ++ [.handled env s.shared s.session frame] }
  exact ⟨queued, wire, hfold, hframes⟩

/-- A poll drops what it receives, or notifies the client at once. -/
theorem State.poll_cases (s : State) :
    s.poll = { s with events := s.events.recv.2 } ∧
        (∀ index event events, s.events.recv = (.message index event, events) →
          Conn.notification s.session event = none) ∨
      ∃ index event events frame pipeline,
        s.events.recv = (.message index event, events) ∧
        Conn.notification s.session event = some (frame, pipeline) ∧
        s.poll = State.flush { s with
          events := events
          session := { s.session with pipeline := pipeline }
          queued := s.queued ++ [frame]
          log := s.log ++ [.notified s.session index event frame] } := by
  unfold State.poll
  rcases hrecv : s.events.recv with ⟨⟨index, event⟩ | _ | _, events⟩
  · dsimp only
    rcases hnote : Conn.notification s.session event with _ | ⟨frame, pipeline⟩
    · refine .inl ⟨rfl, ?_⟩
      intro index' event' events' heq
      cases heq
      exact hnote
    · exact .inr ⟨index, event, events, frame, pipeline, rfl, hnote, rfl⟩
  · exact .inl ⟨rfl, nofun⟩
  · exact .inl ⟨rfl, nofun⟩

/-- A step that leaves the session and its history alone. -/
structure Aside (s t : State) : Prop where
  session_eq : t.session = s.session
  log_eq : t.log = s.log
  frames_eq : t.frames = s.frames
  next_eq : t.events.next = s.events.next
  sent : s.events.sent <+: t.events.sent
  token_eq : t.shared.token = s.shared.token
  flow_eq : s.flow ≠ .next → t.flow = s.flow
  /-- Only a flush turns a session to waiting. -/
  queued_eq : t.queued = s.queued ∧ t.waiting = s.waiting ∨ t.queued = []

/-- The session handles a frame, or it polls, or the step leaves it alone. -/
theorem step_cases (h : step s op = some t) :
    (∃ env frame, op = .frame env frame ∧ s.flow = .next ∧ t = s.handle env frame) ∨
      (op = .poll ∧ s.flow = .next ∧ t = s.poll) ∨ Aside s t := by
  cases op with
  | frame env frame =>
      rw [step] at h
      split_ifs at h with hflow
      exact .inl ⟨env, frame, rfl, hflow, (Option.some.inj h).symm⟩
  | poll =>
      rw [step] at h
      split_ifs at h with hwaits
      exact .inr (.inl ⟨rfl, hwaits.1, (Option.some.inj h).symm⟩)
  | dry =>
      rw [step] at h
      split_ifs at h with hdry
      obtain rfl := Option.some.inj h
      exact .inr (.inr ⟨rfl, rfl, s.frames_flush, rfl, List.prefix_rfl, rfl, fun _ => rfl, .inr rfl⟩)
  | stop flow =>
      rw [step] at h
      split_ifs at h with hstop
      obtain rfl := Option.some.inj h
      exact .inr (.inr ⟨rfl, rfl, rfl, rfl, List.prefix_rfl, rfl, fun hne => absurd hstop.1 hne,
        .inl ⟨rfl, rfl⟩⟩)
  | write uri text =>
      obtain rfl := Option.some.inj h
      exact .inr (.inr ⟨rfl, rfl, rfl, rfl, List.prefix_rfl, rfl, fun _ => rfl, .inl ⟨rfl, rfl⟩⟩)
  | add uri name mime text =>
      obtain rfl := Option.some.inj h
      exact .inr (.inr ⟨rfl, rfl, rfl, rfl, List.prefix_rfl, rfl, fun _ => rfl, .inl ⟨rfl, rfl⟩⟩)
  | send event =>
      rw [step] at h
      split_ifs at h
      obtain rfl := Option.some.inj h
      exact .inr (.inr ⟨rfl, rfl, rfl, rfl, List.prefix_append _ _, rfl, fun _ => rfl,
        .inl ⟨rfl, rfl⟩⟩)
  | others cache acl =>
      obtain rfl := Option.some.inj h
      exact .inr (.inr ⟨rfl, rfl, rfl, rfl, List.prefix_rfl, rfl, fun _ => rfl, .inl ⟨rfl, rfl⟩⟩)

end Steps

end Live

end Ohmcp
