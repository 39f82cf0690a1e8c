import Ohmcp.Client
import Ohmcp.FrameStream

/-! Concurrent requests on one client: there is no dispatcher task, whoever holds the reader lock reads
for everyone. A request may end, or be dropped, at any of its await points. -/

open Transition

namespace Ohmcp

variable [Externals]

namespace Requests

/-! ### The system -/

/-- Where `request_with_id` has come to. -/
inductive Phase where
  | idle
  /-- Its channel is in `pending`. -/
  | registered
  | writing (contended : Bool)
  /-- In the `select!` of `recv_response`. -/
  | waiting
  /-- Has the lock, and looks at its channel once more. -/
  | checking
  /-- Has the lock, and reads. -/
  | reading
  /-- `recv_response` has returned the frame. -/
  | responded (frame : Frame)
  | returned
  /-- The future was dropped. -/
  | dropped

namespace Phase

/-- The guard of the reader lock is alive. -/
def holds : Phase → Bool
  | checking | reading => true
  | _ => false

/-- The receiving end of the channel is alive. -/
def listens : Phase → Bool
  | registered | writing _ | waiting | checking | reading => true
  | _ => false

def inProgress : Phase → Bool
  | idle | returned | dropped => false
  | _ => true

end Phase

/-- What became of a frame that was taken off the socket. -/
inductive Entry where
  /-- Given to the request with its id, by its channel or as the result of the one that reads. -/
  | handed (raw frame : Frame)
  /-- Whether the request with its id was in progress. -/
  | discarded (raw : Frame) (live : Bool)
  | notice (raw : Frame) (called : Option Callback)
  /-- Its shared-memory reference does not resolve. -/
  | unresolved (raw : Frame)

/-- The frame as it was read. -/
def Entry.raw : Entry → Frame
  | handed raw _ => raw
  | discarded raw _ => raw
  | notice raw _ => raw
  | unresolved raw => raw

structure State where
  /-- The socket and the frame reader, with what the server queued. -/
  stream : Framed.State
  shm : Option ShmRing
  pipeline : PayloadPipeline
  callbacks : Callbacks
  pending : Finset UInt64
  phase : UInt64 → Phase
  /-- What a channel holds. -/
  slot : UInt64 → Option Frame
  locked : Bool
  /-- The requests a response was read for. -/
  answered : Finset UInt64
  /-- The requests with a callback for their progress. -/
  watched : Finset UInt64
  log : List Entry
  /-- What `recv_response` returned, to which request. -/
  results : List (UInt64 × Frame)

omit [Externals] in
def start (shm : Option ShmRing) (pipeline : PayloadPipeline) : State where
  stream := Framed.init
  shm := shm
  pipeline := pipeline
  callbacks := ⟨∅, false, false⟩
  pending := ∅
  phase _ := .idle
  slot _ := none
  locked := false
  answered := ∅
  watched := ∅
  log := []
  results := []

namespace State

omit [Externals] in
/-- A request goes on; the lock lives as long as its guard does. -/
def move (s : State) (id : UInt64) (phase : Phase) : State :=
  { s with
    phase := Function.update s.phase id phase
    locked := phase.holds || (s.locked && !(s.phase id).holds) }

omit [Externals] in
/-- `request_with_id` returns, and `call_tool_with_progress` removes its callback. -/
def leave (s : State) (id : UInt64) : State :=
  { s.move id .returned with
    callbacks := { s.callbacks with progress := s.callbacks.progress.erase id } }

omit [Externals] in
/-- `recv_response` returns a frame. -/
def respond (s : State) (id : UInt64) (frame : Frame) : State :=
  { s.move id (.responded frame) with results := s.results ++ [(id, frame)] }

omit [Externals] in
/-- A response to somebody else goes to its channel. -/
def dispatch (s : State) (raw frame : Frame) : State :=
  let id := frame.header.requestId
  if id ∈ s.pending then
    let s := { s with pending := s.pending.erase id, answered := insert id s.answered }
    if (s.phase id).listens then
      { s with slot := Function.update s.slot id (some frame), log := s.log ++ [.handed raw frame] }
    else { s with log := s.log ++ [.discarded raw (s.phase id).inProgress] }
  else { s with log := s.log ++ [.discarded raw (s.phase id).inProgress] }

/-- The one who reads takes a frame. -/
def take (s : State) (id : UInt64) (now : Nat) (raw : Frame) : State :=
  match resolveShm s.shm raw with
  | (.error _, shm) => leave { s with shm := shm, log := s.log ++ [.unresolved raw] } id
  | (.ok frame, shm) =>
      match route s.callbacks s.pipeline now frame with
      | (.notification called, pipeline) =>
          { s with shm := shm, pipeline := pipeline, log := s.log ++ [.notice raw called] }
      | (.response frame, pipeline) =>
          let s := { s with shm := shm, pipeline := pipeline }
          if frame.header.requestId = id then
            respond { s with
              pending := s.pending.erase id
              answered := insert id s.answered
              log := s.log ++ [.handed raw frame] } id frame
          else s.dispatch raw frame

end State

inductive Op where
  /-- The channel is registered, and with it a callback for the progress if there is one. -/
  | begin (id : UInt64) (watch : Bool)
  /-- `pending.len() > 1` -/
  | test (id : UInt64)
  /-- The request is written. -/
  | sent (id : UInt64)
  /-- Writing or flushing fails. -/
  | writeFails (id : UInt64)
  /-- The channel is ready. -/
  | receive (id : UInt64)
  | acquire (id : UInt64)
  | tryRecv (id : UInt64)
  /-- The one who has the lock asks for the next frame. -/
  | read (id : UInt64) (now : Nat)
  | timeout (id : UInt64)
  /-- The body is unwrapped and recorded, and the request returns, with an error or without. -/
  | finish (id : UInt64) (moment : Moment) (cacheKey : Option CacheKey)
  | drop (id : UInt64)
  /-- What the server and the network do. -/
  | stream (op : Framed.Op)
  /-- What the server does to the ring. -/
  | ring (shm : Option ShmRing)
  /-- The application sets the callbacks for resources. -/
  | listen (resourceUpdated resourceListChanged : Bool)

/-- What the reader returns, if it does not wait, and the stream afterwards. -/
def next (stream : Framed.State) :
    Option (Except CoreError (Option Frame)) × Framed.State :=
  ((stream.reader.nextFrame stream.reads).1, (Framed.step stream .nextFrame).getD stream)

def step (s : State) : Op → Option State
  | .begin id watch =>
      match s.phase id with
      | .idle => some { s.move id .registered with
          pending := insert id s.pending
          callbacks := { s.callbacks with
            progress := if watch then insert id s.callbacks.progress else s.callbacks.progress }
          watched := if watch then insert id s.watched else s.watched }
      | _ => none
  | .test id =>
      match s.phase id with
      | .registered => some (s.move id (.writing (decide (1 < s.pending.card))))
      | _ => none
  | .sent id =>
      match s.phase id with
      | .writing _ => some (s.move id .waiting)
      | _ => none
  | .writeFails id =>
      match s.phase id with
      | .writing _ => some (s.leave id)
      | _ => none
  | .receive id =>
      match s.phase id, s.slot id with
      | .waiting, some frame => some (s.respond id frame)
      | _, _ => none
  | .acquire id =>
      match s.phase id with
      | .waiting => if s.locked then none else some (s.move id .checking)
      | _ => none
  | .tryRecv id =>
      match s.phase id with
      | .checking => some (match s.slot id with
          | some frame => s.respond id frame
          | none => s.move id .reading)
      | _ => none
  | .read id now =>
      match s.phase id with
      | .reading =>
          let s' := { s with stream := (next s.stream).2 }
          some (match (next s.stream).1 with
            | none => s'
            | some (.ok (some raw)) => s'.take id now raw
            | some (.ok none) => s'.leave id
            | some (.error _) => s'.leave id)
      | _ => none
  | .timeout id =>
      match s.phase id with
      | .waiting | .reading => some (s.leave id)
      | _ => none
  | .finish id moment cacheKey =>
      match s.phase id with
      | .responded frame => some { s.leave id with
          pipeline := (finishRequest s.pipeline moment cacheKey frame).2 }
      | _ => none
  | .drop id =>
      match s.phase id with
      | .writing _ | .waiting | .reading => some (s.move id .dropped)
      | _ => none
  | .stream op =>
      match op with
      | .nextFrame | .nextBuffered => none
      | op => (Framed.step s.stream op).map fun stream => { s with stream := stream }
  | .ring shm => some { s with shm := shm }
  | .listen resourceUpdated resourceListChanged => some { s with
      callbacks := { s.callbacks with
        resourceUpdated := resourceUpdated
        resourceListChanged := resourceListChanged } }

/-! ### What a step does -/

section Cases

variable {s t : State} {id : UInt64}

theorem step_begin {watch : Bool} (hstep : step s (.begin id watch) = some t) :
    s.phase id = .idle ∧ t = { s.move id .registered with
      pending := insert id s.pending
      callbacks := { s.callbacks with
        progress := if watch then insert id s.callbacks.progress else s.callbacks.progress }
      watched := if watch then insert id s.watched else s.watched } := by
  cases hphase : s.phase id with
  | idle =>
      simp only [step.eq_def, hphase] at hstep
      exact ⟨rfl, (Option.some.inj hstep).symm⟩
  | _ =>
      simp [step.eq_def, hphase] at hstep

theorem step_test (hstep : step s (.test id) = some t) :
    s.phase id = .registered ∧ t = s.move id (.writing (decide (1 < s.pending.card))) := by
  cases hphase : s.phase id with
  | registered =>
      simp only [step.eq_def, hphase] at hstep
      exact ⟨rfl, (Option.some.inj hstep).symm⟩
  | _ =>
      simp [step.eq_def, hphase] at hstep

theorem step_sent (hstep : step s (.sent id) = some t) :
    (∃ contended, s.phase id = .writing contended) ∧ t = s.move id .waiting := by
  cases hphase : s.phase id with
  | writing contended =>
      simp only [step.eq_def, hphase] at hstep
      exact ⟨⟨contended, rfl⟩, (Option.some.inj hstep).symm⟩
  | _ =>
      simp [step.eq_def, hphase] at hstep

theorem step_writeFails (hstep : step s (.writeFails id) = some t) :
    (∃ contended, s.phase id = .writing contended) ∧ t = s.leave id := by
  cases hphase : s.phase id with
  | writing contended =>
      simp only [step.eq_def, hphase] at hstep
      exact ⟨⟨contended, rfl⟩, (Option.some.inj hstep).symm⟩
  | _ =>
      simp [step.eq_def, hphase] at hstep

theorem step_receive (hstep : step s (.receive id) = some t) :
    s.phase id = .waiting ∧ ∃ frame, s.slot id = some frame ∧ t = s.respond id frame := by
  cases hphase : s.phase id with
  | waiting =>
      cases hslot : s.slot id with
      | none =>
          simp [step.eq_def, hphase, hslot] at hstep
      | some frame =>
          simp only [step.eq_def, hphase, hslot] at hstep
          exact ⟨rfl, frame, rfl, (Option.some.inj hstep).symm⟩
  | _ =>
      rw [step.eq_def] at hstep
      dsimp only at hstep
      rw [hphase] at hstep
      cases hstep

theorem step_acquire (hstep : step s (.acquire id) = some t) :
    s.phase id = .waiting ∧ s.locked = false ∧ t = s.move id .checking := by
  cases hphase : s.phase id with
  | waiting =>
      simp only [step.eq_def, hphase] at hstep
      split_ifs at hstep with hlocked
      exact ⟨rfl, Bool.eq_false_iff.mpr hlocked, (Option.some.inj hstep).symm⟩
  | _ =>
      simp [step.eq_def, hphase] at hstep

theorem step_tryRecv (hstep : step s (.tryRecv id) = some t) : s.phase id = .checking ∧
    ((∃ frame, s.slot id = some frame ∧ t = s.respond id frame) ∨
      s.slot id = none ∧ t = s.move id .reading) := by
  cases hphase : s.phase id with
  | checking =>
      simp only [step.eq_def, hphase] at hstep
      cases hslot : s.slot id with
      | none =>
          rw [hslot] at hstep
          exact ⟨rfl, Or.inr ⟨rfl, (Option.some.inj hstep).symm⟩⟩
      | some frame =>
          rw [hslot] at hstep
          exact ⟨rfl, Or.inl ⟨frame, rfl, (Option.some.inj hstep).symm⟩⟩
  | _ =>
      simp [step.eq_def, hphase] at hstep

/-- The one who reads waits, takes a frame, or comes to the end of the stream. -/
theorem step_read {now : Nat} (hstep : step s (.read id now) = some t) : s.phase id = .reading ∧
    ((next s.stream).1 = none ∧ t = { s with stream := (next s.stream).2 } ∨
      (∃ raw, (next s.stream).1 = some (.ok (some raw)) ∧
        t = State.take { s with stream := (next s.stream).2 } id now raw) ∨
      ((next s.stream).1 = some (.ok none) ∨ ∃ e, (next s.stream).1 = some (.error e)) ∧
        t = State.leave { s with stream := (next s.stream).2 } id) := by
  cases hphase : s.phase id with
  | reading =>
      simp only [step.eq_def, hphase] at hstep
      refine ⟨rfl, ?_⟩
      rcases hnext : (next s.stream).1 with _ | (e | (_ | raw))
      · rw [hnext] at hstep
        exact Or.inl ⟨rfl, (Option.some.inj hstep).symm⟩
      · rw [hnext] at hstep
        exact Or.inr (Or.inr ⟨Or.inr ⟨e, rfl⟩, (Option.some.inj hstep).symm⟩)
      · rw [hnext] at hstep
        exact Or.inr (Or.inr ⟨Or.inl rfl, (Option.some.inj hstep).symm⟩)
      · rw [hnext] at hstep
        exact Or.inr (Or.inl ⟨raw, rfl, (Option.some.inj hstep).symm⟩)
  | _ =>
      simp [step.eq_def, hphase] at hstep

theorem step_timeout (hstep : step s (.timeout id) = some t) :
    (s.phase id = .waiting ∨ s.phase id = .reading) ∧ t = s.leave id := by
  cases hphase : s.phase id with
  | waiting =>
      simp only [step.eq_def, hphase] at hstep
      exact ⟨Or.inl rfl, (Option.some.inj hstep).symm⟩
  | reading =>
      simp only [step.eq_def, hphase] at hstep
      exact ⟨Or.inr rfl, (Option.some.inj hstep).symm⟩
  | _ =>
      simp [step.eq_def, hphase] at hstep

theorem step_finish {moment : Moment} {cacheKey : Option CacheKey}
    (hstep : step s (.finish id moment cacheKey) = some t) : ∃ frame,
      s.phase id = .responded frame ∧ t = { s.leave id with
        pipeline := (finishRequest s.pipeline moment cacheKey frame).2 } := by
  cases hphase : s.phase id with
  | responded frame =>
      simp only [step.eq_def, hphase] at hstep
      exact ⟨frame, rfl, (Option.some.inj hstep).symm⟩
  | _ =>
      simp [step.eq_def, hphase] at hstep

theorem step_drop (hstep : step s (.drop id) = some t) :
    ((∃ contended, s.phase id = .writing contended) ∨ s.phase id = .waiting ∨
      s.phase id = .reading) ∧ t = s.move id .dropped := by
  cases hphase : s.phase id with
  | writing contended =>
      simp only [step.eq_def, hphase] at hstep
      exact ⟨Or.inl ⟨contended, rfl⟩, (Option.some.inj hstep).symm⟩
  | waiting =>
      simp only [step.eq_def, hphase] at hstep
      exact ⟨Or.inr (Or.inl rfl), (Option.some.inj hstep).symm⟩
  | reading =>
      simp only [step.eq_def, hphase] at hstep
      exact ⟨Or.inr (Or.inr rfl), (Option.some.inj hstep).symm⟩
  | _ =>
      simp [step.eq_def, hphase] at hstep

theorem step_stream {op : Framed.Op} (hstep : step s (.stream op) = some t) :
    ∃ stream, op ≠ .nextFrame ∧ op ≠ .nextBuffered ∧ Framed.step s.stream op = some stream ∧
      t = { s with stream := stream } := by
  cases op with
  | nextFrame => cases hstep
  | nextBuffered => cases hstep
  | _ =>
      obtain ⟨stream, hstream, rfl⟩ := Option.map_eq_some_iff.mp hstep
      exact ⟨stream, by simp, by simp, hstream, rfl⟩

/-- The message types the reading loop keeps from the requests. -/
def notifies : MsgType → Bool
  | .progress | .resourceUpdated | .resourceListChanged => true
  | _ => false

theorem route_notification {callbacks : Callbacks} {pipeline after : PayloadPipeline} {now : Nat}
    {frame : Frame} {called : Option Callback}
    (hroute : route callbacks pipeline now frame = (.notification called, after)) :
    notifies frame.header.msgType = true := by
  cases htype : frame.header.msgType with
  | progress => rfl
  | resourceUpdated => rfl
  | resourceListChanged => rfl
  | _ =>
      simp only [route, htype] at hroute
      cases congrArg Prod.fst hroute

theorem route_response {callbacks : Callbacks} {pipeline after : PayloadPipeline} {now : Nat}
    {frame response : Frame} (hroute : route callbacks pipeline now frame = (.response response, after)) :
    response = frame ∧ after = pipeline ∧ notifies frame.header.msgType = false := by
  cases htype : frame.header.msgType with
  | progress =>
      simp only [route, htype] at hroute
      cases congrArg Prod.fst hroute
  | resourceUpdated =>
      simp only [route, htype] at hroute
      cases congrArg Prod.fst hroute
  | resourceListChanged =>
      simp only [route, htype] at hroute
      cases congrArg Prod.fst hroute
  | _ =>
      simp only [route, htype] at hroute
      obtain ⟨hresponse, hafter⟩ := Prod.mk.inj hroute
      exact ⟨(Routed.response.inj hresponse).symm, hafter.symm, rfl⟩

/-- What a frame that was taken leads to. -/
inductive Taken (s : State) (id : UInt64) (now : Nat) (raw : Frame) : State → Prop where
  | unresolved {e : String} {shm : Option ShmRing} (hresolve : resolveShm s.shm raw = (.error e, shm)) :
      Taken s id now raw (State.leave { s with shm := shm, log := s.log ++ [.unresolved raw] } id)
  | notice {frame : Frame} {shm : Option ShmRing} {called : Option Callback}
      {pipeline : PayloadPipeline} (hresolve : resolveShm s.shm raw = (.ok frame, shm))
      (hroute : route s.callbacks s.pipeline now frame = (.notification called, pipeline)) :
      Taken s id now raw
        { s with shm := shm, pipeline := pipeline, log := s.log ++ [.notice raw called] }
  | own {frame : Frame} {shm : Option ShmRing} (hresolve : resolveShm s.shm raw = (.ok frame, shm))
      (htype : notifies frame.header.msgType = false) (hid : frame.header.requestId = id) :
      Taken s id now raw (State.respond { s with
        shm := shm
        pending := s.pending.erase id
        answered := insert id s.answered
        log := s.log ++ [.handed raw frame] } id frame)
  | other {frame : Frame} {shm : Option ShmRing} (hresolve : resolveShm s.shm raw = (.ok frame, shm))
      (htype : notifies frame.header.msgType = false) (hid : frame.header.requestId ≠ id) :
      Taken s id now raw (State.dispatch { s with shm := shm } raw frame)

theorem taken (s : State) (id : UInt64) (now : Nat) (raw : Frame) :
    Taken s id now raw (s.take id now raw) := by
  rcases hresolve : resolveShm s.shm raw with ⟨e | frame, shm⟩
  · simp only [State.take, hresolve]
    exact .unresolved hresolve
  · rcases hroute : route s.callbacks s.pipeline now frame with ⟨called | response, pipeline⟩
    · simp only [State.take, hresolve, hroute]
      exact .notice hresolve hroute
    · obtain ⟨rfl, rfl, htype⟩ := route_response hroute
      simp only [State.take, hresolve, hroute]
      by_cases hid : response.header.requestId = id
      · rw [if_pos hid]
        exact .own hresolve htype hid
      · rw [if_neg hid]
        exact .other hresolve htype hid

end Cases

/-! ### What holds of the requests at any time -/

/-- The channel of a request and its place in `pending` fit what the request is doing. -/
structure Consistent (s : State) (id : UInt64) : Prop where
  pending_iff : id ∈ s.pending ↔ s.phase id ≠ .idle ∧ id ∉ s.answered
  begun : id ∈ s.answered → s.phase id ≠ .idle
  reading : s.phase id = .reading → id ∉ s.answered
  responded : ∀ frame, s.phase id = .responded frame → id ∈ s.answered
  heard : id ∈ s.answered → (s.phase id).listens = true → ∃ frame, s.slot id = some frame
  filled : ∀ frame, s.slot id = some frame → id ∈ s.answered

structure Inv (s : State) : Prop where
  consistent : ∀ id, Consistent s id
  locked : ∀ id, (s.phase id).holds = true → s.locked = true
  alone : ∀ id id', (s.phase id).holds = true → (s.phase id').holds = true → id = id'

section Invariant

variable {s t : State} {id : UInt64}

omit [Externals] in
theorem inv_start (shm : Option ShmRing) (pipeline : PayloadPipeline) : Inv (start shm pipeline) where
  consistent id :=
    { pending_iff := iff_of_false (Finset.notMem_empty id) fun h => h.1 rfl
      begun := fun h => absurd h (Finset.notMem_empty id)
      reading := fun h => Phase.noConfusion h
      responded := fun _ h => Phase.noConfusion h
      heard := fun h => absurd h (Finset.notMem_empty id)
      filled := fun _ h => by cases h }
  locked _ h := Bool.noConfusion h
  alone _ _ h := Bool.noConfusion h

omit [Externals] in
/-- One request goes on, its own channel changes with it, and the lock with its guard. -/
theorem Inv.update (h : Inv s) (id : UInt64)
    (hothers : ∀ other, other ≠ id → t.phase other = s.phase other ∧ t.slot other = s.slot other ∧
      (other ∈ t.pending ↔ other ∈ s.pending) ∧ (other ∈ t.answered ↔ other ∈ s.answered))
    (hlocked : t.locked = ((t.phase id).holds || (s.locked && !(s.phase id).holds)))
    (hholds : (t.phase id).holds = true → (s.phase id).holds = true ∨ s.locked = false)
    (hconsistent : Consistent t id) : Inv t := by
  have hfree : ∀ other, other ≠ id → (s.phase other).holds = true →
      (s.phase id).holds = false ∧ (t.phase id).holds = false := by
    intro other hne hother
    have hid : (s.phase id).holds = false := by
      by_contra hid
      exact hne (h.alone other id hother (Bool.of_not_eq_false hid))
    refine ⟨hid, ?_⟩
    by_contra hnew
    rcases hholds (Bool.of_not_eq_false hnew) with hold | hunlocked
    · rw [hid] at hold
      cases hold
    · rw [h.locked other hother] at hunlocked
      cases hunlocked
  refine ⟨fun other => ?_, fun other hother => ?_, fun other other' hother hother' => ?_⟩
  · by_cases hid : other = id
    · rw [hid]
      exact hconsistent
    · obtain ⟨hphase, hslot, hpending, hanswered⟩ := hothers other hid
      have hold := h.consistent other
      constructor
      · rw [hpending, hphase, hanswered]
        exact hold.pending_iff
      · rw [hphase, hanswered]
        exact hold.begun
      · rw [hphase, hanswered]
        exact hold.reading
      · rw [hphase, hanswered]
        exact hold.responded
      · rw [hphase, hanswered, hslot]
        exact hold.heard
      · rw [hslot, hanswered]
        exact hold.filled
  · by_cases hid : other = id
    · rw [hlocked, ← hid, hother, Bool.true_or]
    · rw [(hothers other hid).1] at hother
      rw [hlocked, (hfree other hid hother).1, h.locked other hother]
      simp
  · by_cases hid : other = id
    · by_cases hid' : other' = id
      · rw [hid, hid']
      · rw [(hothers other' hid').1] at hother'
        rw [hid, (hfree other' hid' hother').2] at hother
        cases hother
    · rw [(hothers other hid).1] at hother
      by_cases hid' : other' = id
      · rw [hid', (hfree other hid hother).2] at hother'
        cases hother'
      · rw [(hothers other' hid').1] at hother'
        exact h.alone other other' hother hother'

omit [Externals] in
/-- What the requests do not look at may change. -/
theorem Inv.aside (h : Inv s) (hphase : t.phase = s.phase) (hslot : t.slot = s.slot)
    (hpending : t.pending = s.pending) (hanswered : t.answered = s.answered)
    (hlocked : t.locked = s.locked) : Inv t := by
  refine ⟨fun id => ?_, ?_, ?_⟩
  · obtain ⟨hiff, hbegun, hreading, hresponded, hheard, hfilled⟩ := h.consistent id
    constructor
    · rwa [hpending, hphase, hanswered]
    · rwa [hphase, hanswered]
    · rwa [hphase, hanswered]
    · rwa [hphase, hanswered]
    · rwa [hphase, hanswered, hslot]
    · rwa [hslot, hanswered]
  · rw [hphase, hlocked]
    exact h.locked
  · rw [hphase]
    exact h.alone

omit [Externals] in
@[simp] theorem phase_move_self (s : State) (id : UInt64) (phase : Phase) :
    (s.move id phase).phase id = phase := Function.update_self ..

omit [Externals] in
@[simp] theorem phase_move_other (s : State) {id other : UInt64} (phase : Phase) (hne : other ≠ id) :
    (s.move id phase).phase other = s.phase other := Function.update_of_ne hne ..

omit [Externals] in
/-- A request goes on, and nothing becomes of its channel. -/
theorem Inv.move (h : Inv s) {phase : Phase} (hold : s.phase id ≠ .idle) (hnew : phase ≠ .idle)
    (hreading : phase = .reading → id ∉ s.answered)
    (hresponded : ∀ frame, phase = .responded frame → id ∈ s.answered)
    (hlistens : phase.listens = true → (s.phase id).listens = true)
    (hholds : phase.holds = true → (s.phase id).holds = true ∨ s.locked = false) :
    Inv (s.move id phase) := by
  have hid := h.consistent id
  have hself := phase_move_self s id phase
  refine h.update id (fun other hne => ⟨phase_move_other s phase hne, rfl, Iff.rfl, Iff.rfl⟩) ?_ ?_ ?_
  · rw [hself]
    rfl
  · rwa [hself]
  · constructor
    · rw [hself]
      exact hid.pending_iff.trans (and_congr_left fun _ => iff_of_true hold hnew)
    · rw [hself]
      exact fun _ => hnew
    · rwa [hself]
    · rwa [hself]
    · rw [hself]
      exact fun hanswered hphase => hid.heard hanswered (hlistens hphase)
    · exact hid.filled

omit [Externals] in
/-- A request ends, one way or the other. -/
theorem Inv.ends (h : Inv s) {phase : Phase} (hold : s.phase id ≠ .idle)
    (hnew : phase = .returned ∨ phase = .dropped) : Inv (s.move id phase) := by
  rcases hnew with rfl | rfl
  · exact h.move hold nofun nofun nofun nofun nofun
  · exact h.move hold nofun nofun nofun nofun nofun

omit [Externals] in
theorem Inv.leave (h : Inv s) (hold : s.phase id ≠ .idle) : Inv (s.leave id) :=
  (h.ends hold (Or.inl rfl)).aside rfl rfl rfl rfl rfl

omit [Externals] in
theorem Inv.begin (h : Inv s) (hidle : s.phase id = .idle) (t : State)
    (hphase : t.phase = (s.move id .registered).phase) (hslot : t.slot = s.slot)
    (hpending : t.pending = insert id s.pending) (hanswered : t.answered = s.answered)
    (hlocked : t.locked = (s.move id .registered).locked) : Inv t := by
  have hid := h.consistent id
  have hself : t.phase id = .registered := by rw [hphase, phase_move_self]
  have hnot : id ∉ s.answered := fun hmem => hid.begun hmem hidle
  refine h.update id (fun other hne => ⟨?_, by rw [hslot], ?_, by rw [hanswered]⟩) ?_ ?_ ?_
  · rw [hphase, phase_move_other s _ hne]
  · rw [hpending, Finset.mem_insert, or_iff_right hne]
  · rw [hlocked, hself]
    rfl
  · rw [hself]
    exact nofun
  · constructor
    · rw [hpending, hself, hanswered]
      exact iff_of_true (Finset.mem_insert_self id _) ⟨nofun, hnot⟩
    · rw [hself]
      exact fun _ => nofun
    · rw [hself]
      exact nofun
    · rw [hself]
      exact nofun
    · rw [hanswered]
      exact fun hmem => absurd hmem hnot
    · rw [hslot, hanswered]
      exact hid.filled

omit [Externals] in
/-- The one who reads gets its own response. -/
theorem Inv.own (h : Inv s) (frame : Frame) (t : State)
    (hphase : t.phase = (s.move id (.responded frame)).phase) (hslot : t.slot = s.slot)
    (hpending : t.pending = s.pending.erase id) (hanswered : t.answered = insert id s.answered)
    (hlocked : t.locked = (s.move id (.responded frame)).locked) : Inv t := by
  have hself : t.phase id = .responded frame := by rw [hphase, phase_move_self]
  have hmem : id ∈ t.answered := by
    rw [hanswered]
    exact Finset.mem_insert_self id _
  refine h.update id (fun other hne => ⟨?_, by rw [hslot], ?_, ?_⟩) ?_ ?_ ?_
  · rw [hphase, phase_move_other s _ hne]
  · rw [hpending, Finset.mem_erase, and_iff_right hne]
  · rw [hanswered, Finset.mem_insert, or_iff_right hne]
  · rw [hlocked, hself]
    rfl
  · rw [hself]
    exact nofun
  · constructor
    · rw [hpending]
      exact iff_of_false (Finset.notMem_erase id _) fun hout => hout.2 hmem
    · rw [hself]
      exact fun _ => nofun
    · rw [hself]
      exact nofun
    · exact fun _ _ => hmem
    · rw [hself]
      exact nofun
    · exact fun _ _ => hmem

omit [Externals] in
/-- A response to somebody else is taken. Nobody else has the lock, so its request does not read. -/
theorem Inv.dispatch (h : Inv s) (hreading : s.phase id = .reading) {raw frame : Frame}
    (hid : frame.header.requestId ≠ id) : Inv (s.dispatch raw frame) := by
  have hother := h.consistent frame.header.requestId
  have hfree : (s.phase frame.header.requestId).holds = false := by
    by_contra hholds
    apply hid
    exact h.alone _ _ (Bool.of_not_eq_false hholds) (by rw [hreading]; rfl)
  have hlock : s.locked = ((s.phase frame.header.requestId).holds ||
      (s.locked && !(s.phase frame.header.requestId).holds)) := by
    rw [hfree, Bool.false_or, Bool.not_false, Bool.and_true]
  have hnotReading : s.phase frame.header.requestId ≠ .reading := by
    intro hphase
    rw [hphase] at hfree
    cases hfree
  unfold State.dispatch
  by_cases hpending : frame.header.requestId ∈ s.pending
  · obtain ⟨hbegun, hfresh⟩ := hother.pending_iff.mp hpending
    have hunresponded : ∀ response, s.phase frame.header.requestId ≠ .responded response :=
      fun response hphase => hfresh (hother.responded response hphase)
    have hrest : ∀ other, other ≠ frame.header.requestId →
        (other ∈ s.pending.erase frame.header.requestId ↔ other ∈ s.pending) ∧
        (other ∈ insert frame.header.requestId s.answered ↔ other ∈ s.answered) :=
      fun other hne => ⟨by rw [Finset.mem_erase, and_iff_right hne],
        by rw [Finset.mem_insert, or_iff_right hne]⟩
    have hout : frame.header.requestId ∉ s.pending.erase frame.header.requestId :=
      Finset.notMem_erase _ _
    have hin : frame.header.requestId ∈ insert frame.header.requestId s.answered :=
      Finset.mem_insert_self _ _
    simp only [if_pos hpending]
    split_ifs with hlistens
    · refine h.update frame.header.requestId
        (fun other hne => ⟨rfl, Function.update_of_ne hne .., hrest other hne⟩) hlock Or.inl ?_
      exact
        { pending_iff := iff_of_false hout fun hmem => hmem.2 hin
          begun := fun _ => hbegun
          reading := fun hphase => absurd hphase hnotReading
          responded := fun _ _ => hin
          heard := fun _ _ => ⟨frame, Function.update_self ..⟩
          filled := fun _ _ => hin }
    · refine h.update frame.header.requestId
        (fun other hne => ⟨rfl, rfl, hrest other hne⟩) hlock Or.inl ?_
      exact
        { pending_iff := iff_of_false hout fun hmem => hmem.2 hin
          begun := fun _ => hbegun
          reading := fun hphase => absurd hphase hnotReading
          responded := fun _ _ => hin
          heard := fun _ hphase => absurd hphase hlistens
          filled := fun _ _ => hin }
  · simp only [if_neg hpending]
    exact h.aside rfl rfl rfl rfl rfl

omit [Externals] in
/-- What a channel holds is returned. -/
theorem Inv.respond (h : Inv s) (hold : s.phase id ≠ .idle) (frame : Frame)
    (hanswered : id ∈ s.answered) : Inv (s.respond id frame) := by
  have hmove : Inv (s.move id (.responded frame)) :=
    h.move hold nofun nofun (fun _ _ => hanswered) nofun nofun
  exact hmove.aside rfl rfl rfl rfl rfl

theorem Inv.taken {now : Nat} {raw : Frame} (h : Inv s) (hreading : s.phase id = .reading)
    (htaken : Taken s id now raw t) : Inv t := by
  have hbegun : s.phase id ≠ .idle := by
    rw [hreading]
    exact nofun
  cases htaken with
  | unresolved => exact Inv.leave (h.aside rfl rfl rfl rfl rfl) hbegun
  | notice => exact h.aside rfl rfl rfl rfl rfl
  | own => exact h.own _ _ rfl rfl rfl rfl rfl
  | @other _ shm _ _ hid =>
      have haside : Inv { s with shm := shm } := h.aside rfl rfl rfl rfl rfl
      exact haside.dispatch hreading hid

theorem Inv.step {op : Op} (h : Inv s) (hstep : step s op = some t) : Inv t := by
  cases op with
  | begin id watch =>
      obtain ⟨hidle, rfl⟩ := step_begin hstep
      exact h.begin hidle _ rfl rfl rfl rfl rfl
  | test id =>
      obtain ⟨hphase, rfl⟩ := step_test hstep
      apply h.move <;> simp [hphase, Phase.listens, Phase.holds]
  | sent id =>
      obtain ⟨⟨contended, hphase⟩, rfl⟩ := step_sent hstep
      apply h.move <;> simp [hphase, Phase.listens, Phase.holds]
  | writeFails id =>
      obtain ⟨⟨contended, hphase⟩, rfl⟩ := step_writeFails hstep
      exact h.leave (by simp [hphase])
  | receive id =>
      obtain ⟨hphase, frame, hslot, rfl⟩ := step_receive hstep
      exact h.respond (by simp [hphase]) frame ((h.consistent id).filled frame hslot)
  | acquire id =>
      obtain ⟨hphase, hlocked, rfl⟩ := step_acquire hstep
      apply h.move <;> simp [hphase, Phase.listens, hlocked]
  | tryRecv id =>
      obtain ⟨hphase, ⟨frame, hslot, rfl⟩ | ⟨hslot, rfl⟩⟩ := step_tryRecv hstep
      · exact h.respond (by simp [hphase]) frame ((h.consistent id).filled frame hslot)
      · have hnot : id ∉ s.answered := by
          intro hanswered
          obtain ⟨frame, hsome⟩ := (h.consistent id).heard hanswered (by rw [hphase]; rfl)
          rw [hslot] at hsome
          cases hsome
        apply h.move <;> simp [hphase, Phase.listens, Phase.holds, hnot]
  | read id now =>
      obtain ⟨hphase, ⟨_, rfl⟩ | ⟨raw, _, rfl⟩ | ⟨_, rfl⟩⟩ := step_read hstep
      · exact h.aside rfl rfl rfl rfl rfl
      · have haside : Inv { s with stream := (next s.stream).2 } := h.aside rfl rfl rfl rfl rfl
        exact haside.taken hphase (Requests.taken _ id now raw)
      · exact Inv.leave (h.aside rfl rfl rfl rfl rfl) (by simp [hphase])
  | timeout id =>
      obtain ⟨hphase | hphase, rfl⟩ := step_timeout hstep
      · exact h.leave (by simp [hphase])
      · exact h.leave (by simp [hphase])
  | finish id moment cacheKey =>
      obtain ⟨frame, hphase, rfl⟩ := step_finish hstep
      exact Inv.aside (h.leave (by simp [hphase])) rfl rfl rfl rfl rfl
  | drop id =>
      obtain ⟨⟨contended, hphase⟩ | hphase | hphase, rfl⟩ := step_drop hstep
      · exact h.ends (by simp [hphase]) (Or.inr rfl)
      · exact h.ends (by simp [hphase]) (Or.inr rfl)
      · exact h.ends (by simp [hphase]) (Or.inr rfl)
  | stream op =>
      obtain ⟨stream, _, _, _, rfl⟩ := step_stream hstep
      exact h.aside rfl rfl rfl rfl rfl
  | ring shm =>
      obtain rfl := Option.some.inj hstep
      exact h.aside rfl rfl rfl rfl rfl
  | listen resourceUpdated resourceListChanged =>
      obtain rfl := Option.some.inj hstep
      exact h.aside rfl rfl rfl rfl rfl

/-- Whatever the requests do, in any order. -/
theorem inv_run {shm : Option ShmRing} {pipeline : PayloadPipeline} {ops : List Op}
    (hrun : Run step Free (start shm pipeline) ops s) : Inv s :=
  hrun.invariant (fun _ _ _ hinv _ hstep => hinv.step hstep) (inv_start shm pipeline)

end Invariant

end Requests

end Ohmcp
