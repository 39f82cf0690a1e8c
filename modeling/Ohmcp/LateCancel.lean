import Ohmcp.Effects
import Ohmcp.Transition

/-! Cancellations over the frames of a session: which ids the set of cancelled ones holds, and when a
cancellation that comes too late is ignored. -/

open Transition

namespace Ohmcp

variable [Externals]

namespace Cancelling

/-! ### Frames as far as cancellation goes -/

inductive Mark where
  | call (id : UInt64)
  /-- A request of another type. -/
  | request (id : UInt64)
  | cancel (id : UInt64)
  | other

namespace Mark

/-- The ids answered with the frame. -/
def answers : Mark → List UInt64
  | .call id => [id]
  | .request id => [id]
  | .cancel _ => []
  | .other => []

/-- The set after the frame. -/
def cancelled (ids : Finset UInt64) : Mark → Finset UInt64
  | .call id => ids.erase id
  | .request _ => ids
  | .cancel id => insert id ids
  | .other => ids

end Mark

def mark (now : Nat) (session : Session) (frame : Frame) : Mark :=
  match frame.header.msgType with
  | .callTool => .call frame.header.requestId
  | .cancel =>
      match (session.pipeline.unwrap now frame).1 with
      | .ok data => ((Externals.fromSlice .cancelParams data).map
          fun params => Mark.cancel params.requestId).getD .other
      | .error _ => .other
  | .shmSetup => .request frame.header.requestId
  | msgType => if (resultType msgType).isSome then .request frame.header.requestId else .other

/-! ### Sessions -/

structure State where
  shared : Shared
  session : Session
  /-- What was processed, the newest frame first. -/
  history : List Mark
  /-- What was queued, the oldest frame first. -/
  out : List Frame

inductive Event where
  | frame (env : Environment) (frame : Frame)
  /-- What other connections and the host do to the shared state. -/
  | others (change : Shared → Shared)

/-- An authenticated session before its first frame. -/
def start (shared : Shared) (session : Session) : State := ⟨shared, session, [], []⟩

def markOf (s : State) (env : Environment) (frame : Frame) : Mark :=
  match resolveUplink s.session frame with
  | (.ok resolved, session) => mark env.now session resolved
  | (.error _, _) => .other

/-- One frame, as long as the session goes on. -/
def step (s : State) : Event → Option State
  | .frame env frame =>
      let handled := handleFrame env s.shared s.session frame
      if handled.flow = .next then
        some {
          shared := handled.shared
          session := handled.session
          history := markOf s env frame :: s.history
          out := s.out ++ Conn.queued handled.actions }
      else none
  | .others change => some { s with shared := change s.shared }

/-- What each of the events writes. -/
def responses : State → List Event → List (List Action)
  | _, [] => []
  | s, event :: events =>
      (match event with
        | .frame env frame => (handleFrame env s.shared s.session frame).actions
        | .others _ => []) ::
      (match step s event with
        | some t => responses t events
        | none => [])

theorem responses_cons (s : State) (event : Event) (events : List Event) :
    responses s (event :: events) =
      (match event with
        | .frame env frame => (handleFrame env s.shared s.session frame).actions
        | .others _ => []) ::
      (match step s event with
        | some t => responses t events
        | none => []) := rfl

/-- Well-formed frames: a reference to the uplink resolves, and the body decrypts and parses. -/
def Sends (s : State) : Event → Prop
  | .frame env frame => ∃ resolved session, resolveUplink s.session frame = (.ok resolved, session) ∧
      (WellBehaved env s.shared session resolved ∨ resolved.header.msgType = .shmSetup)
  | .others _ => True

omit [Externals] in
/-- The ids of the terminal frames. -/
def terminals (frames : List Frame) : List UInt64 :=
  (frames.filter fun frame => frame.header.msgType ≠ .progress).map fun frame =>
    frame.header.requestId

/-- The set holds no id of a request that was answered. -/
def Unanswered (s : State) : Prop := ∀ id ∈ s.session.cancelled, id ∉ terminals s.out

/-- A cancellation that comes after the answer. -/
def Late (s : State) : Event → Prop
  | .frame env frame => ∃ id, markOf s env frame = .cancel id ∧ id ∈ terminals s.out
  | .others _ => False

/-- In every state the set holds no id that was answered, and without a late cancellation what is
written is the same. -/
def Ignores : State → List Event → Prop
  | s, [] => Unanswered s
  | s, event :: events => Unanswered s ∧ ∀ t, step s event = some t →
      (Late s event → responses t events = responses s events) ∧ Ignores t events

def AllSends : State → List Event → Prop
  | _, [] => True
  | s, event :: events => Sends s event ∧ ∀ t, step s event = some t → AllSends t events

/-- A cancellation names no request that came before, and a request other than a call has no id that
was named and has not been called since. -/
def Timely (s : State) : Event → Prop
  | .frame env frame => ∀ id,
      (markOf s env frame = .cancel id → ∀ mark ∈ s.history, id ∉ mark.answers) ∧
      (markOf s env frame = .request id →
        ¬ Since (· = Mark.cancel id) (· = Mark.call id) s.history)
  | .others _ => True

def AllTimely : State → List Event → Prop
  | _, [] => True
  | s, event :: events => ∀ t, step s event = some t → Timely s event ∧ AllTimely t events

/-! ### One frame -/

section Frames

variable {env : Environment} {shared : Shared} {session : Session} {frame : Frame}

omit [Externals] in
theorem terminals_append (first later : List Frame) :
    terminals (first ++ later) = terminals first ++ terminals later := by
  rw [terminals, List.filter_append, List.map_append]
  rfl

omit [Externals] in
theorem terminals_terminal {request terminal : Frame} {result : MsgType}
    (hresult : resultType request.header.msgType = some result)
    (h : Terminal request result terminal) : terminals [terminal] = [request.header.requestId] := by
  have hne : terminal.header.msgType ≠ .progress := by
    rcases h.2 with htype | htype
    · rw [htype]
      rintro rfl
      cases hmsg : request.header.msgType <;> rw [hmsg] at hresult <;> cases hresult
    · rw [htype]
      decide
  rw [terminals, List.filter_cons_of_pos (by simpa using hne), List.filter_nil, List.map_singleton,
    h.1]

omit [Externals] in
/-- Whatever is announced, the terminal frame is the answer to the request. -/
theorem terminals_of_answers {announced : Prop} {request : Frame} {frames : List Frame}
    (h : Answers announced request frames) : terminals frames =
      if (resultType request.header.msgType).isSome then [request.header.requestId] else [] := by
  unfold Answers at h
  cases hresult : resultType request.header.msgType with
  | none =>
      rw [hresult] at h
      rw [h]
      rfl
  | some result =>
      rw [hresult] at h
      obtain ⟨terminal, hterminal, hnoticed, hsilent⟩ := h
      have honly := terminals_terminal hresult hterminal
      rw [Option.isSome_some, if_pos rfl]
      by_cases hannounced : announced
      · obtain ⟨notice, hnotice, rfl⟩ := hnoticed hannounced
        have hnone : terminals [notice] = [] := by
          rw [terminals, List.filter_cons_of_neg (by simp [hnotice.2]), List.filter_nil]
          rfl
        rw [← List.singleton_append, terminals_append, hnone, honly]
        rfl
      · rw [hsilent hannounced, honly]

theorem answers_mark (htype : frame.header.msgType ≠ .shmSetup) :
    (mark env.now session frame).answers =
      if (resultType frame.header.msgType).isSome then [frame.header.requestId] else [] := by
  cases hmsg : frame.header.msgType with
  | shmSetup => exact absurd hmsg htype
  | cancel =>
      simp only [mark, hmsg]
      cases (session.pipeline.unwrap env.now frame).1 with
      | error e => rfl
      | ok data =>
          rcases hparams : Externals.fromSlice .cancelParams data with _ | params
          · simp only [hparams]
            rfl
          · simp only [hparams]
            rfl
  | _ =>
      simp only [mark, hmsg]
      rfl

/-- Whatever does not concern cancellation leaves the set as it is. -/
theorem cancelled_of_effect {handled : Handled} (h : Effect env shared session frame handled)
    (hcancel : frame.header.msgType ≠ .cancel)
    (hcall : frame.header.msgType = .callTool → frame.header.requestId ∉ session.cancelled) :
    handled.session.cancelled = session.cancelled := by
  cases h with
  | cancels _ _ _ htype => exact absurd htype hcancel
  | callCancelled _ _ _ htype _ _ hmem => exact absurd hmem (hcall htype)
  | _ => rfl

/-- The set after a frame, whatever the handler does. -/
theorem cancelled_dispatch (hauth : session.authenticated = true)
    (hflow : (dispatch env shared session frame).flow = .next) :
    (dispatch env shared session frame).session.cancelled =
      (mark env.now session frame).cancelled session.cancelled := by
  by_cases hcancel : frame.header.msgType = .cancel
  · simp only [dispatch, mark, hcancel, hauth, handleCancel] at hflow ⊢
    rcases hunwrap : session.pipeline.unwrap env.now frame with ⟨e | data, pipeline⟩
    · rw [hunwrap] at hflow
      exact absurd hflow (Flow.failed_ne _).1
    · dsimp only
      cases Externals.fromSlice .cancelParams data <;> rfl
  by_cases hcall : frame.header.msgType = .callTool
  · have hmark : mark env.now session frame = .call frame.header.requestId := by
      simp only [mark, hcall]
    rw [hmark]
    by_cases hmem : frame.header.requestId ∈ session.cancelled
    · simp only [dispatch, hcall, hauth, handleCallTool, if_pos hmem]
      rfl
    · rw [cancelled_of_effect (effect_dispatch env shared session frame) hcancel fun _ => hmem]
      exact (Finset.erase_eq_of_notMem hmem).symm
  · rw [cancelled_of_effect (effect_dispatch env shared session frame) hcancel
      fun h => absurd h hcall]
    have hsame : (mark env.now session frame).cancelled session.cancelled = session.cancelled := by
      unfold mark
      split
      · exact absurd ‹_› hcall
      · exact absurd ‹_› hcancel
      · rfl
      · split_ifs <;> rfl
    exact hsame.symm

/-- A setup that goes on is answered. -/
theorem dispatch_shmSetup (hauth : session.authenticated = true)
    (htype : frame.header.msgType = .shmSetup)
    (hflow : (dispatch env shared session frame).flow = .next) :
    (dispatch env shared session frame).session.authenticated = true ∧
      terminals (Conn.queued (dispatch env shared session frame).actions) =
        [frame.header.requestId] := by
  simp only [dispatch, htype, hauth, handleShmSetup] at hflow ⊢
  by_cases hdup : env.dupMade = true
  · rw [if_pos hdup]
    refine ⟨?_, ?_⟩
    · dsimp only
      split_ifs <;> exact hauth
    · dsimp only
      rw [List.cons_append, ← List.singleton_append, Conn.queued_append, Conn.queued_append,
        Conn.queued_map_rawByte]
      rfl
  · rw [if_neg hdup] at hflow
    exact absurd hflow (Flow.failed_ne _).1

end Frames

/-! ### Runs -/

/-- What the set and the answers are, by the history. -/
structure Tracks (s : State) : Prop where
  authenticated : s.session.authenticated = true
  cancelled_iff : ∀ id, id ∈ s.session.cancelled ↔
    Since (· = Mark.cancel id) (· = Mark.call id) s.history
  terminals_iff : ∀ id, id ∈ terminals s.out ↔ ∃ mark ∈ s.history, id ∈ mark.answers

omit [Externals] in
theorem tracks_start {shared : Shared} {session : Session} (hauth : session.authenticated = true)
    (hempty : session.cancelled = ∅) : Tracks (start shared session) := by
  refine ⟨hauth, fun id => iff_of_false ?_ not_since_nil, fun id => iff_of_false ?_ ?_⟩
  · change id ∉ session.cancelled
    rw [hempty]
    exact Finset.notMem_empty id
  · exact List.not_mem_nil
  · rintro ⟨_, hmem, _⟩
    exact List.not_mem_nil hmem

section Steps

variable {s t : State} {env : Environment} {frame : Frame} {event : Event}

omit [Externals] in
/-- The set follows the history, frame by frame. -/
theorem mem_cancelled_iff {ids : Finset UInt64} {history : List Mark} {id : UInt64}
    (h : id ∈ ids ↔ Since (· = Mark.cancel id) (· = Mark.call id) history) (mark : Mark) :
    id ∈ mark.cancelled ids ↔ Since (· = Mark.cancel id) (· = Mark.call id) (mark :: history) := by
  rw [since_cons, ← h]
  cases mark with
  | call called =>
      rw [Mark.cancelled, Finset.mem_erase]
      simp [eq_comm]
  | request _ => simp [Mark.cancelled]
  | cancel named =>
      rw [Mark.cancelled, Finset.mem_insert]
      simp [eq_comm]
  | other => simp [Mark.cancelled]

/-- One frame of an authenticated session: the set, the answers and the history. -/
structure Processed (s t : State) (mark : Mark) : Prop where
  authenticated : t.session.authenticated = true
  cancelled_eq : t.session.cancelled = mark.cancelled s.session.cancelled
  terminals_eq : terminals t.out = terminals s.out ++ mark.answers
  history_eq : t.history = mark :: s.history

theorem processed (hauth : s.session.authenticated = true) (hsends : Sends s (.frame env frame))
    (hstep : step s (.frame env frame) = some t) : Processed s t (markOf s env frame) := by
  obtain ⟨resolved, session, hresolve, hwell⟩ := hsends
  obtain ⟨_, _, hsession⟩ := resolveUplink_ok hresolve
  have hauth' : session.authenticated = true := by
    rw [hsession]
    exact hauth
  have hsame : session.cancelled = s.session.cancelled := by rw [hsession]
  have hmark : markOf s env frame = mark env.now session resolved := by rw [markOf, hresolve]
  have hhandled : handleFrame env s.shared s.session frame =
      dispatch env s.shared session resolved := handleFrame_of_ok hresolve
  rw [step, hhandled] at hstep
  split_ifs at hstep with hflow
  obtain rfl := Option.some.inj hstep
  have hanswers : (dispatch env s.shared session resolved).session.authenticated = true ∧
      terminals (Conn.queued (dispatch env s.shared session resolved).actions) =
        (mark env.now session resolved).answers := by
    by_cases htype : resolved.header.msgType = .shmSetup
    · have hsetup : (mark env.now session resolved).answers = [resolved.header.requestId] := by
        simp only [mark, htype]
        rfl
      rw [hsetup]
      exact dispatch_shmSetup hauth' htype hflow
    · obtain ⟨_, hstill, frames, hactions, hframes⟩ :=
        answered_dispatch hauth' (hwell.resolve_right htype)
      rw [hactions, Conn.queued_map_queue, terminals_of_answers hframes, answers_mark htype]
      exact ⟨hstill, rfl⟩
  rw [hmark]
  refine ⟨hanswers.1, ?_, ?_, by simp only⟩
  · rw [← hsame]
    exact cancelled_dispatch hauth' hflow
  · rw [terminals_append, hanswers.2]

omit [Externals] in
theorem Tracks.processed (h : Tracks s) {mark : Mark} (hprocessed : Processed s t mark) :
    Tracks t := by
  refine ⟨hprocessed.authenticated, fun id => ?_, fun id => ?_⟩
  · rw [hprocessed.cancelled_eq, hprocessed.history_eq]
    exact mem_cancelled_iff (h.cancelled_iff id) mark
  · rw [hprocessed.terminals_eq, hprocessed.history_eq, List.mem_append, h.terminals_iff]
    simp only [List.mem_cons, exists_eq_or_imp]
    exact or_comm

theorem Tracks.step (h : Tracks s) (hsends : Sends s event) (hstep : step s event = some t) :
    Tracks t := by
  cases event with
  | frame env frame => exact h.processed (Cancelling.processed h.authenticated hsends hstep)
  | others change =>
      obtain rfl := Option.some.inj hstep
      exact ⟨h.authenticated, h.cancelled_iff, h.terminals_iff⟩

/-- One frame keeps the set clear of answered ids if and only if it is timely. -/
theorem unanswered_iff (h : Tracks s) (hclear : Unanswered s) (hsends : Sends s event)
    (hstep : step s event = some t) : Unanswered t ↔ Timely s event := by
  cases event with
  | others change =>
      obtain rfl := Option.some.inj hstep
      exact iff_of_true hclear trivial
  | frame env frame =>
      have hprocessed := processed h.authenticated hsends hstep
      rw [Unanswered, hprocessed.cancelled_eq, hprocessed.terminals_eq, Timely]
      cases hmark : markOf s env frame with
      | call called =>
          refine iff_of_true (fun id hid hanswered => ?_) fun id => ⟨by simp, by simp⟩
          obtain ⟨hne, hmem⟩ := Finset.mem_erase.mp hid
          rcases List.mem_append.mp hanswered with hold | hnew
          · exact hclear id hmem hold
          · exact hne (List.mem_singleton.mp hnew)
      | request named =>
          simp only [Mark.cancelled, Mark.answers, reduceCtorEq, false_implies, true_and,
            Mark.request.injEq]
          constructor
          · rintro hall id rfl hsince
            exact hall named ((h.cancelled_iff named).mpr hsince)
              (List.mem_append_right _ (List.mem_singleton.mpr rfl))
          · intro hnot id hid hanswered
            rcases List.mem_append.mp hanswered with hold | hnew
            · exact hclear id hid hold
            · exact hnot id (List.mem_singleton.mp hnew).symm ((h.cancelled_iff id).mp hid)
      | cancel named =>
          simp only [Mark.cancelled, Mark.answers, List.append_nil, reduceCtorEq, false_implies,
            and_true, Mark.cancel.injEq]
          constructor
          · rintro hall id rfl mark hmem hanswers
            exact hall named (Finset.mem_insert_self _ _)
              ((h.terminals_iff named).mpr ⟨mark, hmem, hanswers⟩)
          · intro hnot id hid hanswered
            rcases Finset.mem_insert.mp hid with rfl | hold
            · obtain ⟨mark, hmem, hanswers⟩ := (h.terminals_iff id).mp hanswered
              exact hnot id rfl mark hmem hanswers
            · exact hclear id hold hanswered
      | other =>
          refine iff_of_true (fun id hid hanswered => ?_) fun id => ⟨by simp, by simp⟩
          rw [Mark.answers, List.append_nil] at hanswered
          exact hclear id hid hanswered

theorem not_late_of_timely (h : Tracks s) (htimely : Timely s event) : ¬ Late s event := by
  cases event with
  | others change => exact id
  | frame env frame =>
      rintro ⟨named, hmark, hanswered⟩
      obtain ⟨mark, hmem, hanswers⟩ := (h.terminals_iff named).mp hanswered
      exact (htimely named).1 hmark mark hmem hanswers

end Steps

theorem Ignores.unanswered {s : State} {events : List Event} (h : Ignores s events) :
    Unanswered s := by
  cases events with
  | nil => exact h
  | cons event events => exact h.1

theorem ignores_iff_of_tracks {s : State} {events : List Event} (h : Tracks s)
    (hclear : Unanswered s) (hsends : AllSends s events) :
    Ignores s events ↔ AllTimely s events := by
  induction events generalizing s with
  | nil => exact iff_of_true hclear trivial
  | cons event events ih =>
      constructor
      · intro hignores t hstep
        have hafter := (hignores.2 t hstep).2
        have htimely := (unanswered_iff h hclear hsends.1 hstep).mp hafter.unanswered
        exact ⟨htimely, (ih (h.step hsends.1 hstep) hafter.unanswered (hsends.2 t hstep)).mp hafter⟩
      · intro htimely
        refine ⟨hclear, fun t hstep => ?_⟩
        obtain ⟨hnow, hlater⟩ := htimely t hstep
        have hafter := (unanswered_iff h hclear hsends.1 hstep).mpr hnow
        exact ⟨fun hlate => absurd hlate (not_late_of_timely h hnow),
          (ih (h.step hsends.1 hstep) hafter (hsends.2 t hstep)).mpr hlater⟩

/-- **Cancellation.** On an authenticated session, for every sequence of well-formed frames: late
cancellations are ignored and the set never holds an id that was answered, if and only if every
cancellation comes before the request that it names, and that is a call. -/
theorem cancels_ignored_iff {shared : Shared} {session : Session} {events : List Event}
    (hauth : session.authenticated = true) (hempty : session.cancelled = ∅)
    (hsends : AllSends (start shared session) events) :
    Ignores (start shared session) events ↔ AllTimely (start shared session) events := by
  refine ignores_iff_of_tracks (tracks_start hauth hempty) (fun id hmem => ?_) hsends
  have hnone : id ∈ session.cancelled := hmem
  rw [hempty] at hnone
  exact absurd hnone (Finset.notMem_empty id)

/-! ### Ids that are not used again -/

section Unused

variable {env : Environment} {shared : Shared} {session : Session} {frame : Frame} {id : UInt64}
  {ids : Finset UInt64}

/-- The same, but for the set. -/
def withCancelled (handled : Handled) (ids : Finset UInt64) : Handled :=
  { handled with session := { handled.session with cancelled := ids } }

theorem withParams_cancelled {schema : Schema} {now : Nat} {body : Session → schema.Body → Handled}
    (hbody : ∀ session params, body { session with cancelled := ids } params =
      withCancelled (body session params) ids) :
    withParams shared { session with cancelled := ids } schema now frame body =
      withCancelled (withParams shared session schema now frame body) ids := by
  unfold withParams
  dsimp only
  rcases session.pipeline.unwrap now frame with ⟨e | data, pipeline⟩
  · rfl
  · dsimp only
    rcases Externals.fromSlice schema data with _ | params
    · rfl
    · exact hbody { session with pipeline := pipeline } params

theorem handleAuth_cancelled : handleAuth env shared { session with cancelled := ids } frame =
    withCancelled (handleAuth env shared session frame) ids := by
  unfold handleAuth
  rcases Externals.fromSlice .authParams frame.payload with _ | params
  · rfl
  · dsimp only
    rcases acceptedAuth shared.token params with e | accepted
    · rfl
    · rcases authClientPub params with e | clientPub
      · rfl
      · rcases accepted with _ | ⟨token, nonce⟩ <;> rfl

theorem handleShmSetup_cancelled :
    handleShmSetup env shared { session with cancelled := ids } frame =
      withCancelled (handleShmSetup env shared session frame) ids := by
  unfold handleShmSetup
  dsimp only
  split_ifs <;> rfl

theorem handleReadResource_cancelled :
    handleReadResource env shared { session with cancelled := ids } frame =
      withCancelled (handleReadResource env shared session frame) ids := by
  refine withParams_cancelled fun session params => ?_
  cases shared.registry.readResource params.uri <;> rfl

theorem handleGetPrompt_cancelled :
    handleGetPrompt env shared { session with cancelled := ids } frame =
      withCancelled (handleGetPrompt env shared session frame) ids := by
  refine withParams_cancelled fun session params => ?_
  cases shared.registry.getPrompt env.occasion params.name params.arguments <;> rfl

theorem handleSubscribe_cancelled :
    handleSubscribe env shared { session with cancelled := ids } frame =
      withCancelled (handleSubscribe env shared session frame) ids := by
  unfold handleSubscribe
  dsimp only
  refine withParams_cancelled fun session params => ?_
  dsimp only
  split_ifs <;> rfl

theorem performCall_cancelled (params : CallToolParams) :
    performCall env shared { session with cancelled := ids } id params =
      withCancelled (performCall env shared session id params) ids := by
  unfold performCall
  dsimp only
  rcases shared.acl.check session.agentId params.name with e | _
  · rfl
  · dsimp only
    rcases (answerCall env.toMoment shared.registry shared.cache session.delivered params.name
      params.arguments).1 with key | ⟨body, cacheable⟩ | _ <;> rfl

theorem announce_cancelled (params : CallToolParams) :
    announce { session with cancelled := ids } id params =
      ((announce session id params).1, { (announce session id params).2 with cancelled := ids }) := by
  unfold announce
  split_ifs <;> rfl

/-- A call is treated alike whether or not another id is in the set. -/
theorem handleCallTool_cancelled
    (hsame : frame.header.requestId ∈ ids ↔ frame.header.requestId ∈ session.cancelled) :
    handleCallTool env shared { session with cancelled := ids } frame =
      withCancelled (handleCallTool env shared session frame)
        (ids.erase frame.header.requestId) := by
  unfold handleCallTool
  dsimp only
  by_cases hmem : frame.header.requestId ∈ session.cancelled
  · rw [if_pos hmem, if_pos (hsame.mpr hmem)]
    rfl
  · rw [if_neg hmem, if_neg fun h => hmem (hsame.mp h),
      Finset.erase_eq_of_notMem fun h => hmem (hsame.mp h)]
    refine withParams_cancelled fun session params => ?_
    rw [announce_cancelled]
    dsimp only
    rw [performCall_cancelled]
    rfl

/-- Two sets that differ in one id at most. -/
def SameBut (id : UInt64) (ids ids' : Finset UInt64) : Prop :=
  ∀ other, other ≠ id → (other ∈ ids ↔ other ∈ ids')

/-- What the handling of a frame that does not call the id makes of two sets that differ in it. -/
structure Alike (id : UInt64) (ids : Finset UInt64) (handled handled' : Handled) : Prop where
  handled_eq : handled' = withCancelled handled ids
  same : SameBut id ids handled.session.cancelled

theorem alike_handleCancel (hsame : SameBut id ids session.cancelled) :
    ∃ ids', Alike id ids' (handleCancel env shared session frame)
      (handleCancel env shared { session with cancelled := ids } frame) := by
  unfold handleCancel
  dsimp only
  rcases session.pipeline.unwrap env.now frame with ⟨e | data, pipeline⟩
  · exact ⟨ids, rfl, hsame⟩
  · dsimp only
    rcases Externals.fromSlice .cancelParams data with _ | params
    · exact ⟨ids, rfl, hsame⟩
    · refine ⟨insert params.requestId ids, rfl, fun other hother => ?_⟩
      change other ∈ insert params.requestId ids ↔ other ∈ insert params.requestId session.cancelled
      rw [Finset.mem_insert, Finset.mem_insert, hsame other hother]

/-- A call that is cancelled drops its id, and any other does not have it. -/
theorem cancelled_handleCallTool (hauth : session.authenticated = true)
    (htype : frame.header.msgType = .callTool) :
    (handleCallTool env shared session frame).session.cancelled =
      session.cancelled.erase frame.header.requestId := by
  by_cases hmem : frame.header.requestId ∈ session.cancelled
  · simp only [handleCallTool, if_pos hmem]
    rfl
  · rw [cancelled_of_effect (effect_callTool hauth htype) (by rw [htype]; decide) fun _ => hmem]
    exact (Finset.erase_eq_of_notMem hmem).symm

/-- Every type but a call and a cancellation is handled without a look at the set. -/
theorem dispatch_cancelled (hauth : session.authenticated = true)
    (hcall : frame.header.msgType ≠ .callTool) (hcancel : frame.header.msgType ≠ .cancel) :
    dispatch env shared { session with cancelled := ids } frame =
      withCancelled (dispatch env shared session frame) ids := by
  obtain ⟨session', hsession⟩ : ∃ session', session' = { session with cancelled := ids } := ⟨_, rfl⟩
  have hauth' : session'.authenticated = true := by
    rw [hsession]
    exact hauth
  rw [← hsession]
  cases htype : frame.header.msgType with
  | callTool => exact absurd htype hcall
  | cancel => exact absurd htype hcancel
  | auth =>
      simp only [dispatch, htype]
      rw [hsession]
      exact handleAuth_cancelled
  | shmSetup =>
      simp only [dispatch, htype, hauth, hauth']
      rw [hsession]
      exact handleShmSetup_cancelled
  | readResource =>
      simp only [dispatch, htype, hauth, hauth']
      rw [hsession]
      exact handleReadResource_cancelled
  | getPrompt =>
      simp only [dispatch, htype, hauth, hauth']
      rw [hsession]
      exact handleGetPrompt_cancelled
  | subscribeResource =>
      simp only [dispatch, htype, hauth, hauth']
      rw [hsession]
      exact handleSubscribe_cancelled
  | unsubscribeResource =>
      simp only [dispatch, htype, hauth, hauth']
      rw [hsession]
      exact handleSubscribe_cancelled
  | _ =>
      simp only [dispatch, htype, hauth, hauth']
      rw [hsession]
      rfl

theorem alike_dispatch (hauth : session.authenticated = true)
    (hsame : SameBut id ids session.cancelled)
    (hcall : frame.header.msgType = .callTool → frame.header.requestId ≠ id) :
    ∃ ids', Alike id ids' (dispatch env shared session frame)
      (dispatch env shared { session with cancelled := ids } frame) := by
  by_cases hcancel : frame.header.msgType = .cancel
  · have hdispatch (session : Session) (hauth : session.authenticated = true) :
        dispatch env shared session frame = handleCancel env shared session frame := by
      simp only [dispatch, hcancel, hauth]
    rw [hdispatch session hauth, hdispatch { session with cancelled := ids } hauth]
    exact alike_handleCancel hsame
  by_cases htype : frame.header.msgType = .callTool
  · have hdispatch (session : Session) (hauth : session.authenticated = true) :
        dispatch env shared session frame = handleCallTool env shared session frame := by
      simp only [dispatch, htype, hauth]
    rw [hdispatch session hauth, hdispatch { session with cancelled := ids } hauth]
    refine ⟨_, handleCallTool_cancelled (hsame _ (hcall htype)), fun other hother => ?_⟩
    rw [cancelled_handleCallTool hauth htype, Finset.mem_erase, Finset.mem_erase,
      hsame other hother]
  · refine ⟨ids, dispatch_cancelled hauth htype hcancel, ?_⟩
    rw [cancelled_of_effect (effect_dispatch env shared session frame) hcancel
      fun h => absurd h htype]
    exact hsame

variable (session ids) in
omit [Externals] in
theorem resolveUplink_cancelled : resolveUplink { session with cancelled := ids } frame =
    ((resolveUplink session frame).1,
      { (resolveUplink session frame).2 with cancelled := ids }) := rfl

variable (env shared) in
theorem alike_handleFrame (hauth : session.authenticated = true)
    (hsame : SameBut id ids session.cancelled)
    (hcall : frame.header.msgType = .callTool → frame.header.requestId ≠ id) :
    ∃ ids', Alike id ids' (handleFrame env shared session frame)
      (handleFrame env shared { session with cancelled := ids } frame) := by
  rw [handleFrame, handleFrame, resolveUplink_cancelled session ids]
  rcases hresolve : resolveUplink session frame with ⟨e | resolved, after⟩
  · refine ⟨ids, rfl, ?_⟩
    have hafter : after.cancelled = session.cancelled :=
      congrArg (fun result => result.2.cancelled) hresolve.symm
    exact fun other hother => (hsame other hother).trans (by rw [← hafter]; exact Iff.rfl)
  · obtain ⟨htype, hid, hafter⟩ := resolveUplink_ok hresolve
    refine alike_dispatch (by rw [hafter]; exact hauth) (by rw [hafter]; exact hsame) ?_
    rw [htype, hid]
    exact hcall

theorem authenticated_of_effect {handled : Handled} (h : Effect env shared session frame handled)
    (hauth : session.authenticated = true) : handled.session.authenticated = true := by
  cases h with
  | accepts => rfl
  | _ => exact hauth

/-- A session stays authenticated. -/
theorem authenticated_handleFrame (hauth : session.authenticated = true) :
    (handleFrame env shared session frame).session.authenticated = true := by
  rcases handleFrame_cases env shared session frame with ⟨_, _, _, hhandled⟩ | ⟨_, _, _, heffect⟩
  · rw [hhandled]
    exact hauth
  · exact authenticated_of_effect heffect hauth

/-- Two sessions that differ in whether one id is cancelled. -/
structure Twins (id : UInt64) (s s' : State) : Prop where
  authenticated : s.session.authenticated = true
  shared_eq : s'.shared = s.shared
  session_eq : ∃ ids, s'.session = { s.session with cancelled := ids } ∧
    SameBut id ids s.session.cancelled

/-- No frame calls the id. -/
def Uncalled (id : UInt64) : Event → Prop
  | .frame _ frame => frame.header.msgType = .callTool → frame.header.requestId ≠ id
  | .others _ => True

theorem Twins.responses {s s' : State} {events : List Event} (h : Twins id s s')
    (hunused : ∀ event ∈ events, Uncalled id event) :
    responses s' events = responses s events := by
  induction events generalizing s s' with
  | nil => rfl
  | cons event events ih =>
      obtain ⟨huncalled, hrest⟩ := List.forall_mem_cons.mp hunused
      obtain ⟨ids, hsession, hsame⟩ := h.session_eq
      rw [responses_cons, responses_cons]
      cases event with
      | others change =>
          refine congrArg _ (ih ⟨h.authenticated, ?_, ids, hsession, hsame⟩ hrest)
          exact congrArg change h.shared_eq
      | frame env frame =>
          obtain ⟨ids', halike⟩ :=
            alike_handleFrame env s.shared h.authenticated hsame huncalled
          dsimp only
          rw [step, step, h.shared_eq, hsession, halike.handled_eq]
          by_cases hflow : (handleFrame env s.shared s.session frame).flow = .next
          · have hflow' : (withCancelled (handleFrame env s.shared s.session frame) ids').flow =
                .next := hflow
            rw [if_pos hflow, if_pos hflow']
            refine congrArg _ (ih ⟨?_, rfl, ids', rfl, halike.same⟩ hrest)
            exact authenticated_handleFrame h.authenticated
          · have hflow' : (withCancelled (handleFrame env s.shared s.session frame) ids').flow ≠
                .next := hflow
            rw [if_neg hflow, if_neg hflow']
            rfl

variable (env shared) in
/-- A cancellation as clients send it, in a frame of its own. -/
theorem handleFrame_cancel (hauth : session.authenticated = true)
    (hplain : Plain .cancel frame) (hinline : frame.header.flags.shmRef = false) :
    ∃ flow, handleFrame env shared session frame = ⟨shared, { session with
      cancelled := (mark env.now session frame).cancelled session.cancelled }, [], flow⟩ := by
  have hresolve := resolveUplink_inline session hinline
  have hpipeline : (session.pipeline.unwrap env.now frame).2 = session.pipeline := by
    unfold PayloadPipeline.unwrap
    rcases session.pipeline.decryptStage frame with e | data
    · rfl
    · dsimp only
      rcases maybeDecompress data frame.header.flags.compressed with e | data
      · rfl
      · rw [hplain.cacheRef_eq]
        rfl
  rw [handleFrame_of_ok hresolve]
  simp only [dispatch, mark, hplain.msgType_eq, hauth, handleCancel]
  rcases hunwrap : session.pipeline.unwrap env.now frame with ⟨e | data, pipeline⟩
  · rw [hunwrap] at hpipeline
    obtain rfl := hpipeline
    exact ⟨_, rfl⟩
  · rw [hunwrap] at hpipeline
    obtain rfl := hpipeline
    rcases hparams : Externals.fromSlice .cancelParams data with _ | params
    · exact ⟨_, by simp only [hparams]; rfl⟩
    · exact ⟨_, by simp only [hparams]; rfl⟩

/-- **Unused ids.** Whatever came before, a cancellation changes nothing of what is written afterwards
as long as no call has the id that it names. -/
theorem cancel_unused_ignored {s t : State} {events : List Event}
    (hauth : s.session.authenticated = true) (hplain : Plain .cancel frame)
    (hinline : frame.header.flags.shmRef = false) (hmark : markOf s env frame = .cancel id)
    (hstep : step s (.frame env frame) = some t) (hunused : ∀ event ∈ events, Uncalled id event) :
    responses t events = responses s events := by
  obtain ⟨flow, hhandled⟩ := handleFrame_cancel env s.shared hauth hplain hinline
  have hsame : mark env.now s.session frame = .cancel id := by
    rw [markOf, resolveUplink_inline s.session hinline] at hmark
    exact hmark
  rw [hsame] at hhandled
  rw [step, hhandled] at hstep
  split_ifs at hstep
  obtain rfl := Option.some.inj hstep
  refine Twins.responses ⟨hauth, rfl, _, rfl, fun other hother => ?_⟩ hunused
  rw [Mark.cancelled, Finset.mem_insert]
  exact or_iff_right hother

end Unused

/-! ### An id that is used again -/

omit [Externals] in
/-- The texts of one tool, and of a cancellation of request 1. -/
@[reducible] def cancelOne : Externals :=
  { Externals.oneTool with
    fromSlice := fun schema payload =>
      match schema with
      | .cancelParams =>
          if payload = utf8 "\x7b\"requestId\":1\x7d" then some ⟨1, none⟩ else none
      | other => Externals.oneTool.fromSlice other payload }

omit [Externals] in
def environment : Environment where
  now := 0
  putNow := 0
  occasion := 0
  order := []
  eph := ⟨.zeros⟩
  noncePrefix := [0, 0, 0, 0]
  noncePrefix_length := length_zeroPrefix
  ringMade := true
  upRingMade := true
  dupMade := true
  downFdSent := true
  upFdSent := true
  declineSent := true

omit [Externals] in
/-- A frame with id 1. -/
def sent (msgType : MsgType) (payload : String) : Frame := .new msgType 1 (utf8 payload)

omit [Externals] in
def cancelFrame : Frame := sent .cancel "\x7b\"requestId\":1\x7d"

omit [Externals] in
def callFrame : Frame := sent .callTool "\x7b\"name\":\"t\",\"arguments\":null\x7d"

/-- The types of the frames that are written. -/
def written (s : State) (events : List Event) : List (List MsgType) :=
  (responses s events).map fun actions =>
    (Conn.queued actions).map fun frame => frame.header.msgType

/-- A well-behaved frame in a frame of its own is processed, and the session goes on. -/
theorem sent_processed {s : State} (frame : Frame) (hauth : s.session.authenticated = true)
    (hinline : frame.header.flags.shmRef = false)
    (hwell : WellBehaved environment s.shared s.session frame) :
    Sends s (.frame environment frame) ∧
      markOf s environment frame = mark environment.now s.session frame ∧
      ∃ t, step s (.frame environment frame) = some t := by
  have hresolve := resolveUplink_inline s.session hinline
  refine ⟨⟨frame, s.session, hresolve, Or.inl hwell⟩, by rw [markOf, hresolve], ?_⟩
  have hflow : (handleFrame environment s.shared s.session frame).flow = .next := by
    rw [handleFrame_of_ok hresolve]
    exact (answered_dispatch hauth hwell).flow_eq
  exact ⟨_, if_pos hflow⟩

/-- The body of a frame that is sent as it is. -/
theorem opens_sent (schema : Schema) (msgType : MsgType) {payload : String}
    {params : schema.Body} (hparams : Externals.fromSlice schema (utf8 payload) = some params)
    (now : Nat) (session : Session) : Opens schema now session (sent msgType payload) params := by
  refine ⟨utf8 payload, ?_, hparams⟩
  have hencrypted : (sent msgType payload).header.flags.encrypted = false :=
    (by decide : FrameFlags.none.encrypted = false)
  have hcompressed : (sent msgType payload).header.flags.compressed = false :=
    (by decide : FrameFlags.none.compressed = false)
  rw [unwrap_of_plain hencrypted hcompressed (plain_new msgType 1 (utf8 payload)).cacheRef_eq]
  rfl

/-- Where the text of the cancellation is read back, the frame is processed as one of request 1. -/
theorem cancelFrame_read (hparams : Externals.fromSlice .cancelParams
      (utf8 "\x7b\"requestId\":1\x7d") = some (⟨1, none⟩ : CancelParams)) {s : State}
    (hauth : s.session.authenticated = true) : Sends s (.frame environment cancelFrame) ∧
      markOf s environment cancelFrame = .cancel 1 ∧
      ∃ t, step s (.frame environment cancelFrame) = some t := by
  have hopens : Opens .cancelParams environment.now s.session cancelFrame ⟨1, none⟩ :=
    opens_sent .cancelParams .cancel hparams environment.now s.session
  obtain ⟨hsends, hmark, hstep⟩ := sent_processed cancelFrame hauth rfl ⟨_, hopens⟩
  refine ⟨hsends, hmark.trans ?_, hstep⟩
  obtain ⟨data, hdata, hparams⟩ := hopens
  have htype : cancelFrame.header.msgType = .cancel := rfl
  simp only [mark, htype]
  rw [show s.session.pipeline.unwrap environment.now cancelFrame = (.ok data, _) from
    Prod.ext hdata rfl]
  dsimp only
  rw [hparams]
  rfl

omit [Externals] in
theorem cancelFrame_processed : letI : Externals := cancelOne
    ∀ {s : State}, s.session.authenticated = true → Sends s (.frame environment cancelFrame) ∧
      markOf s environment cancelFrame = .cancel 1 ∧
      ∃ t, step s (.frame environment cancelFrame) = some t := by
  let _ : Externals := cancelOne
  intro s hauth
  exact cancelFrame_read (if_pos rfl) hauth

omit [Externals] in
theorem callFrame_processed : letI : Externals := cancelOne
    ∀ {s : State}, s.session.authenticated = true → Sends s (.frame environment callFrame) ∧
      markOf s environment callFrame = .call 1 := by
  let _ : Externals := cancelOne
  intro s hauth
  have hopens : Opens .callToolParams environment.now s.session callFrame ⟨"t", .null, none⟩ :=
    opens_sent .callToolParams .callTool (if_pos rfl) environment.now s.session
  obtain ⟨hsends, hmark, _⟩ := sent_processed callFrame hauth rfl ⟨_, hopens⟩
  exact ⟨hsends, hmark⟩

omit [Externals] in
/-- A call that is cancelled in time. -/
theorem cancels_ignored_iff_timely : letI : Externals := cancelOne
    Ignores (start oneToolServer (.new none))
      [.frame environment cancelFrame, .frame environment callFrame] := by
  let _ : Externals := cancelOne
  have hafter {t : State}
      (hstep : step (start oneToolServer (.new none)) (.frame environment cancelFrame) = some t) :
      t.session.authenticated = true :=
    (processed rfl (cancelFrame_processed rfl).1 hstep).authenticated
  have hsends : AllSends (start oneToolServer (.new none))
      [.frame environment cancelFrame, .frame environment callFrame] :=
    ⟨(cancelFrame_processed rfl).1, fun t hstep =>
      ⟨(callFrame_processed (hafter hstep)).1, fun _ _ => trivial⟩⟩
  refine (cancels_ignored_iff rfl rfl hsends).mpr fun t hstep =>
      ⟨fun id => ⟨fun _ mark hmem => absurd hmem List.not_mem_nil, fun hmark => ?_⟩,
        fun u _ => ⟨fun id => ⟨fun hmark => ?_, fun hmark => ?_⟩, trivial⟩⟩
  · rw [(cancelFrame_processed rfl).2.1] at hmark
    cases hmark
  · rw [(callFrame_processed (hafter hstep)).2] at hmark
    cases hmark
  · rw [(callFrame_processed (hafter hstep)).2] at hmark
    cases hmark

omit [Externals] in
/-- A ping is answered, cancelled, and its id used again: the call is not made. -/
theorem late_cancel_taken : letI : Externals := cancelOne
    let ping := Event.frame environment (sent .ping "")
    let cancel := Event.frame environment cancelFrame
    let call := Event.frame environment callFrame
    AllSends (start oneToolServer (.new none)) [ping, cancel, call] ∧
      ¬ Ignores (start oneToolServer (.new none)) [ping, cancel, call] ∧
      written (start oneToolServer (.new none)) [ping, cancel, call] = [[.pong], [], [.error]] ∧
      written (start oneToolServer (.new none)) [ping, call] = [[.pong], [.callToolResult]] := by
  let _ : Externals := cancelOne
  intro ping cancel call
  obtain ⟨hping, hmark, s, hs⟩ : Sends (start oneToolServer (.new none)) ping ∧
      markOf (start oneToolServer (.new none)) environment (sent .ping "") = .request 1 ∧
        ∃ s, step (start oneToolServer (.new none)) ping = some s :=
    sent_processed (sent .ping "") rfl rfl trivial
  have hprocessed := processed rfl hping hs
  have hauth := hprocessed.authenticated
  obtain ⟨hcancel, hnamed, t, ht⟩ := cancelFrame_processed hauth
  refine ⟨⟨hping, fun s' hs' => ?_⟩, fun hignores => ?_, by decide +kernel, by decide +kernel⟩
  · have hauth' := (processed rfl hping hs').authenticated
    refine ⟨(cancelFrame_processed hauth').1, fun t' ht' => ?_⟩
    have hauth'' := (processed hauth' (cancelFrame_processed hauth').1 ht').authenticated
    exact ⟨(callFrame_processed hauth'').1, fun _ _ => trivial⟩
  · have htracks := (tracks_start rfl rfl).processed hprocessed
    have hclear := (hignores.2 s hs).2.unanswered
    have htimely := (unanswered_iff htracks hclear hcancel ht).mp
      ((hignores.2 s hs).2.2 t ht).2.unanswered
    refine (htimely 1).1 hnamed (.request 1) ?_ (List.mem_singleton.mpr rfl)
    rw [hprocessed.history_eq, hmark]
    exact List.mem_cons_self

end Cancelling

end Ohmcp
