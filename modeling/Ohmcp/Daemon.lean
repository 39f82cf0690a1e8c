import Ohmcp.AuthAgreement
import Ohmcp.Unsent

/-! The daemon: the accept loop of `run_with` with its limit on connections, the tasks that serve
the accepted streams pass by pass, and the shutdown that waits for them. -/

open Transition

namespace Ohmcp

variable [Externals]

omit [Externals] in
/-- The surroundings of one frame. -/
def World.within (env : Environment) : World := ⟨fun _ => env, fun _ shared => shared⟩

namespace Conn

def upcoming (conn : Conn) : Option Frame :=
  match (Frame.decode conn.buf).1 with
  | .ok frame => frame
  | .error _ => none

/-- `next_buffered` and what follows it; with it, whether the session is now waiting. -/
def turnOver (env : Environment) (conn : Conn) : Conn × Bool :=
  match Frame.decode conn.buf with
  | (.ok (some frame), rest) => (conn.handle (.within env) frame rest, false)
  | (.ok none, _) => (conn.flush, true)
  | (.error e, _) => (conn.fail (.core e), false)

/-- A read that the waiting session gets. -/
def readOn (env : Environment) (conn : Conn) (chunk : Bytes) : Conn × Bool :=
  let conn := { conn with buf := conn.buf ++ chunk }
  match Frame.decode conn.buf with
  | (.ok (some frame), rest) => (conn.handle (.within env) frame rest, false)
  | (.ok none, _) => (conn, true)
  | (.error e, _) => (conn.fail (.core e), false)

/-- A session that nobody disturbs drains its buffer pass by pass. -/
theorem drain_turnOver {env : Environment} {conn : Conn} (hflow : conn.flow = .next) :
    conn.drain (.within env) =
      if (conn.turnOver env).2 then (conn.turnOver env).1
      else (conn.turnOver env).1.drain (.within env) := by
  rcases hdecode : Frame.decode conn.buf with ⟨e | frame, rest⟩
  · have hfailed : (conn.fail (.core e)).drain (.within env) = conn.fail (.core e) := by
      rw [drain, if_neg (by rw [fail]; exact Flow.noConfusion)]
    rw [drain_of_error hflow (by rw [hdecode]), turnOver, hdecode]
    exact hfailed.symm
  · cases frame with
    | none =>
        rw [drain_of_wait hflow hdecode, turnOver, hdecode]
        rfl
    | some frame =>
        rw [drain_of_frame hflow hdecode, turnOver, hdecode]
        rfl

theorem receive_readOn {env : Environment} {conn : Conn} (chunk : Bytes) :
    conn.receive (.within env) chunk =
      if (conn.readOn env chunk).2 then (conn.readOn env chunk).1
      else (conn.readOn env chunk).1.drain (.within env) := by
  rw [receive, readOn]
  dsimp only
  rcases hdecode : Frame.decode (conn.buf ++ chunk) with ⟨e | frame, rest⟩
  · have hfailed : ∀ conn : Conn, (conn.fail (.core e)).drain (.within env) =
        conn.fail (.core e) := by
      intro conn
      rw [drain, if_neg (by rw [fail]; exact Flow.noConfusion)]
    exact (hfailed _).symm
  · cases frame with
    | none => rfl
    | some frame => rfl

end Conn

/-! ### The daemon -/

/-- The time to wait is in nanoseconds. -/
structure ServerConfig where
  maxConnections : Nat
  shutdownGrace : Nat

def ServerConfig.default : ServerConfig := ⟨256, 5 * 10 ^ 9⟩

def busyFrame : Frame :=
  .new .error 0 (Externals.toVec .errorBody
    ⟨-32005, "server busy: connection limit reached", none⟩)

namespace Daemon

/-- The task of one connection: whether it is in the `'wait` loop, and whether the shutdown signal
ended the session. -/
structure Task where
  conn : Conn
  /-- How many bytes of what it was given the socket has taken. -/
  taken : Nat
  waiting : Bool
  noticed : Bool

namespace Task

omit [Externals] in
def new (shared : Shared) : Task := ⟨.new shared, 0, false, false⟩

omit [Externals] in
/-- No write waits for the client. -/
def Free (task : Task) : Prop := task.conn.sent.length ≤ task.taken

omit [Externals] in
instance (task : Task) : Decidable task.Free := inferInstanceAs (Decidable (_ ≤ _))

omit [Externals] in
/-- A read or a write fails: what the socket has not taken is lost. The last flush may fail. -/
def broken (task : Task) (failure : Failure) : Task :=
  { task with
    conn := { task.conn with
      sent := task.conn.sent.take task.taken
      flow := if task.conn.flow = .next then .failed failure else task.conn.flow }
    waiting := false }

end Task

/-- An accepted stream: it is served until its task is over, aborted, or turned away by
`reject_busy`. -/
inductive Stream where
  | serving (task : Task)
  | closed (task : Task)
  | aborted (task : Task)
  | rejecting
  | rejected (sent : Bytes)

def Stream.holds : Stream → Bool
  | serving _ => true
  | _ => false

/-- The phases of `run_with`; it fails when `accept` does. -/
inductive Phase where
  | accepting
  | draining (deadline : Nat)
  | returned (drained : Bool)
  | failed
  deriving DecidableEq

/-- The daemon, with the permits that are left and the bodies of the `Auth` frames that were
accepted. -/
structure State where
  shared : Shared
  clock : Nat
  available : Nat
  streams : List Stream
  phase : Phase
  verified : List AuthParams

namespace State

omit [Externals] in
def start (config : ServerConfig) (token : Option Bytes) (registry : ToolRegistry) : State where
  shared := ⟨registry, .new 65536 cacheTtl, ToolAcl.new.grantAll "anonymous", token⟩
  clock := 0
  available := config.maxConnections
  streams := []
  phase := .accepting
  verified := []

omit [Externals] in
def serving (s : State) : Nat := s.streams.countP Stream.holds

omit [Externals] in
def view (s : State) (task : Task) : Conn := { task.conn with shared := s.shared }

omit [Externals] in
def put (s : State) (i : Nat) (task : Task) : State :=
  { s with shared := task.conn.shared, streams := s.streams.set i (.serving task) }

/-- A task has handled the frame its buffer began with. -/
def verify (s : State) (env : Environment) (conn : Conn) : State :=
  { s with verified := s.verified ++ (conn.upcoming.bind fun frame =>
      AuthRuns.acceptedParams env conn.shared conn.session frame).toList }

end State

/-- A stream is read by the bytes of a chunk, where none are its end; `written` is what its socket
takes, and `notice` is `shutdown_rx.changed()`. -/
inductive Op where
  | tick (elapsed : Nat)
  | accept
  | acceptFails
  | reject (i : Nat) (written : Bool)
  | turn (i : Nat) (env : Environment)
  | read (i : Nat) (env : Environment) (chunk : Bytes)
  | event (i : Nat) (event : ResourceEvent)
  | written (i n : Nat)
  | breaks (i : Nat) (failure : Failure)
  | notice (i : Nat)
  | finish (i : Nat)
  | signal
  | joined
  | expired
  | abort (i : Nat)
  | update (uri text : String)
  | add (uri name mime text : String)

omit [Externals] in
/-- The task of a stream whose session goes on and is not in a flush. -/
def State.running (s : State) (i : Nat) : Option Task :=
  match s.streams[i]? with
  | some (.serving task) => if task.conn.flow = .next ∧ task.Free then some task else none
  | _ => none

omit [Externals] in
/-- The tasks are told to end. -/
def Phase.closing : Phase → Bool
  | draining _ => true
  | _ => false

omit [Externals] in
/-- `run_with` is over. -/
def Phase.over : Phase → Bool
  | returned _ => true
  | failed => true
  | _ => false

def step (config : ServerConfig) (s : State) : Op → Option State
  | .tick elapsed => some { s with clock := s.clock + elapsed }
  | .accept =>
      if s.phase = .accepting then
        if s.available = 0 then some { s with streams := s.streams ++ [.rejecting] }
        else some { s with
          available := s.available - 1
          streams := s.streams ++ [.serving (.new s.shared)] }
      else none
  | .acceptFails => if s.phase = .accepting then some { s with phase := .failed } else none
  | .reject i written =>
      match s.streams[i]? with
      | some .rejecting => some { s with
          streams := s.streams.set i (.rejected (if written then busyFrame.encode else [])) }
      | _ => none
  | .turn i env =>
      match s.running i with
      | some task =>
          if task.waiting = false then
            let (conn, waiting) := (s.view task).turnOver env
            some ((s.verify env (s.view task)).put i { task with conn := conn, waiting := waiting })
          else none
      | none => none
  | .read i env chunk =>
      match s.running i with
      | some task =>
          if task.waiting = true ∧ s.phase.over = false then
            if chunk = [] then
              some (s.put i { task with conn := (s.view task).close, waiting := false })
            else
              let (conn, waiting) := (s.view task).readOn env chunk
              some ((s.verify env { s.view task with buf := task.conn.buf ++ chunk }).put i
                { task with conn := conn, waiting := waiting })
          else none
      | none => none
  | .event i event =>
      match s.running i with
      | some task =>
          if task.waiting = true ∧ s.phase.over = false then
            some (s.put i { task with conn := (s.view task).notify event })
          else none
      | none => none
  | .written i n =>
      match s.streams[i]? with
      | some (.serving task) =>
          if 0 < n ∧ task.taken + n ≤ task.conn.sent.length then some { s with
            streams := s.streams.set i (.serving { task with taken := task.taken + n }) }
          else none
      | _ => none
  | .breaks i failure =>
      match s.streams[i]? with
      | some (.serving task) =>
          if task.conn.flow = .next ∨ ¬ task.Free then some { s with
            streams := s.streams.set i (.serving (task.broken failure)) }
          else none
      | _ => none
  | .notice i =>
      match s.running i with
      | some task =>
          if task.waiting = true ∧ s.phase.closing = true then
            some (s.put i { task with
              conn := { (s.view task).flush with flow := .returned }
              waiting := false
              noticed := true })
          else none
      | none => none
  | .finish i =>
      match s.streams[i]? with
      | some (.serving task) =>
          if task.conn.flow ≠ .next ∧ task.Free then some { s with
            available := s.available + 1
            streams := s.streams.set i (.closed task) }
          else none
      | _ => none
  | .signal =>
      if s.phase = .accepting then
        some { s with phase := .draining (s.clock + config.shutdownGrace) }
      else none
  | .joined =>
      match s.phase with
      | .draining _ => if s.serving = 0 then some { s with phase := .returned true } else none
      | _ => none
  | .expired =>
      match s.phase with
      | .draining deadline =>
          if deadline ≤ s.clock ∧ s.serving ≠ 0 then some { s with phase := .returned false }
          else none
      | _ => none
  | .abort i =>
      match s.streams[i]? with
      | some (.serving task) =>
          if s.phase.over = true then
            some { s with
              available := s.available + 1
              streams := s.streams.set i (.aborted task) }
          else none
      | _ => none
  | .update uri text =>
      let (_, _, registry) := s.shared.registry.updateResource uri text
      some { s with shared := { s.shared with registry := registry } }
  | .add uri name mime text =>
      let (_, registry) := s.shared.registry.addResource uri name mime text
      some { s with shared := { s.shared with registry := registry } }

end Daemon

end Ohmcp
