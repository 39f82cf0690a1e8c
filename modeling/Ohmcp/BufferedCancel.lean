import Ohmcp.AccessGate
import Ohmcp.LateCancel

/-! A cancellation that waits in the read buffer. The session takes one frame after the other from its
buffer and looks at none before its turn: a call is skipped by the cancellations in front of it, never
by those behind it. -/

open Transition

namespace Ohmcp

variable [Externals]

/-- `serde_json` reads back the code of an error, a 64-bit number. -/
def Externals.ReadsCodes : Prop := ∀ code message, -2 ^ 63 ≤ code → code < 2 ^ 63 → ∃ body,
  Externals.fromSlice .errorBody (Externals.toVec .errorBody ⟨code, message, none⟩) = some body ∧
    body.code = code

namespace Buffered

open Cancelling (Mark markOf mark)

/-! ### The session and its buffer -/

structure State where
  core : Cancelling.State
  buf : Bytes

inductive Op where
  /-- A read appends to the buffer. -/
  | arrive (chunk : Bytes)
  /-- The next complete frame of the buffer is handled. -/
  | take (env : Environment)
  | event (event : ResourceEvent)
  /-- What other connections and the host do to the shared state. -/
  | others (change : Shared → Shared)

namespace State

omit [Externals] in
/-- An authenticated session before its first frame. -/
def start (shared : Shared) (session : Session) : State := ⟨Cancelling.start shared session, []⟩

/-- The notification of a resource event. -/
def notify (s : State) (event : ResourceEvent) : State :=
  match Conn.notification s.core.session event with
  | some (frame, pipeline) =>
      { s with core := { s.core with
          session := { s.core.session with pipeline := pipeline }
          out := s.core.out ++ [frame] } }
  | none => s

end State

def step (s : State) : Op → Option State
  | .arrive chunk => some { s with buf := s.buf ++ chunk }
  | .take env =>
      match Frame.decode s.buf with
      | (.ok (some frame), rest) =>
          (Cancelling.step s.core (.frame env frame)).map fun core => ⟨core, rest⟩
      | _ => none
  | .event event => some (s.notify event)
  | .others change => (Cancelling.step s.core (.others change)).map fun core => ⟨core, s.buf⟩

/-! ### Cancelled calls and the error -32800 -/

/-- The session is about to take this frame, and a cancellation of its id is processed or lies complete
in the buffer behind it. -/
def Received (s : State) (env : Environment) (frame : Frame) : Prop :=
  ∃ rest, Frame.decode s.buf = (.ok (some frame), rest) ∧
    (Mark.cancel frame.header.requestId ∈ s.core.history ∨
      ∃ frames cancel more, rest = Frame.encodeAll frames ++ (cancel.encode ++ more) ∧
        (∀ other ∈ frames, other.WellFormed) ∧ cancel.WellFormed ∧
        markOf s.core env cancel = .cancel frame.header.requestId)

/-- A peer with the key reads the frame as an error with this code. -/
def ReadsAs (key : Option Bytes32) (code : Int) (frame : Frame) : Prop :=
  frame.header.msgType = .error ∧ ∀ (receiver : PayloadPipeline) (now : Nat),
    receiver.cipherKey = key → ∃ data body, (receiver.unwrap now frame).1 = .ok data ∧
      Externals.fromSlice .errorBody data = some body ∧ body.code = code

/-- What a call is answered with, but for the progress notification. -/
def answersOf (s : State) (env : Environment) (frame : Frame) : List Frame :=
  (Conn.queued (handleFrame env s.core.shared s.core.session frame).actions).filter fun reply =>
    reply.header.msgType ≠ .progress

/-- No handler has a part in the answer, and it is the error -32800. -/
structure Stops (s : State) (env : Environment) (frame : Frame) : Prop where
  untooled : ∀ shared', SameButTools s.core.shared shared' →
    (handleFrame env s.core.shared s.core.session frame).Alike
      (handleFrame env shared' s.core.session frame)
  refused : ∃ reply, answersOf s env frame = [reply] ∧
    reply.header.requestId = frame.header.requestId ∧
    ReadsAs s.core.session.pipeline.cipherKey (-32800) reply

/-- The call is there to be read, and the id was cancelled by a frame before it that no call in between
has used up. -/
def CancelledBefore (s : State) (frame : Frame) : Prop :=
  (∃ resolved session, resolveUplink s.core.session frame = (.ok resolved, session)) ∧
    Since (· = Mark.cancel frame.header.requestId) (· = Mark.call frame.header.requestId)
      s.core.history

/-! ### The codes of errors -/

section Codes

variable {pipeline : PayloadPipeline} {key : Option Bytes32} {code code' : Int} {frame : Frame}

theorem readsAs_wrap (hx : Externals.Lossless) (hcodes : Externals.ReadsCodes)
    (hkey : pipeline.cipherKey = key) (id : UInt64) (code : Int) (message : String)
    (hlow : -2 ^ 63 ≤ code) (hhigh : code < 2 ^ 63) :
    ReadsAs key code
      (pipeline.wrap .error id (Externals.toVec .errorBody ⟨code, message, none⟩)).1 := by
  refine ⟨rfl, fun receiver now hreceiver => ?_⟩
  obtain ⟨body, hbody, hcode⟩ := hcodes code message hlow hhigh
  have hsame : pipeline.SameKey receiver := hreceiver.trans hkey.symm
  exact ⟨_, body, by rw [PayloadPipeline.unwrap_wrap hx hsame], hbody, hcode⟩

theorem ReadsAs.code_eq (h : ReadsAs pipeline.cipherKey code frame)
    (h' : ReadsAs pipeline.cipherKey code' frame) : code = code' := by
  obtain ⟨data, body, hdata, hbody, hcode⟩ := h.2 pipeline 0 rfl
  obtain ⟨data', body', hdata', hbody', hcode'⟩ := h'.2 pipeline 0 rfl
  obtain rfl : data = data' := Except.ok.inj (hdata.symm.trans hdata')
  obtain rfl : body = body' := Option.some.inj (hbody.symm.trans hbody')
  exact hcode.symm.trans hcode'

end Codes

/-! ### One call -/

section Call

variable {env : Environment} {shared : Shared} {session : Session} {frame : Frame} {key : Option Bytes32}

/-- A call that was cancelled. -/
theorem handleCallTool_of_cancelled (hcancelled : frame.header.requestId ∈ session.cancelled) :
    Conn.queued (handleCallTool env shared session frame).actions =
      [(session.pipeline.wrap .error frame.header.requestId
        (Externals.toVec .errorBody ⟨-32800, "request cancelled", none⟩)).1] := by
  rw [handleCallTool, if_pos hcancelled]
  rfl

/-- What else a call that is made may be answered with: a result, or another error. -/
def Otherwise (key : Option Bytes32) (reply : Frame) : Prop :=
  reply.header.msgType = .callToolResult ∨ ∃ (pipeline : PayloadPipeline) (id : UInt64) (code : Int)
    (message : String), pipeline.cipherKey = key ∧ code ∈ [-32002, -32601] ∧
      reply = (pipeline.wrap .error id (Externals.toVec .errorBody ⟨code, message, none⟩)).1

theorem Otherwise.not_readsAs (hx : Externals.Lossless) (hcodes : Externals.ReadsCodes) {reply : Frame}
    (h : Otherwise key reply) : ¬ ReadsAs key (-32800) reply := by
  intro hreads
  rcases h with htype | ⟨pipeline, id, code, message, hkey, hcode, rfl⟩
  · have herror := hreads.1
    rw [htype] at herror
    cases herror
  · subst hkey
    have hbounds : -2 ^ 63 ≤ code ∧ code < 2 ^ 63 ∧ code ≠ -32800 := by
      rcases List.mem_pair.mp hcode with rfl | rfl
      · decide
      · decide
    have hkey : pipeline.cipherKey = pipeline.cipherKey := rfl
    have hown := readsAs_wrap hx hcodes hkey id code message hbounds.1 hbounds.2.1
    exact hbounds.2.2 (hown.code_eq hreads)

theorem Otherwise.ne_progress {reply : Frame} (h : Otherwise key reply) :
    reply.header.msgType ≠ .progress := by
  rcases h with htype | ⟨pipeline, id, code, message, _, _, rfl⟩
  · rw [htype]
    decide
  · exact (by decide : MsgType.error ≠ .progress)

theorem queued_answerFrame (hkey : session.pipeline.cipherKey = key) (id : UInt64) (name : String)
    (outcome : CallAnswer) :
    ∃ reply, Conn.queued (answerFrame shared session id name outcome).actions = [reply] ∧
      Otherwise key reply := by
  cases outcome with
  | reference cacheKey => exact ⟨_, rfl, .inl rfl⟩
  | full body cacheable =>
      have htype := (wrapMaybeShm_header id session.pipeline session.shm body).2
      cases cacheable with
      | true => exact ⟨_, rfl, .inl htype⟩
      | false => exact ⟨_, rfl, .inl htype⟩
  | unknown => exact ⟨_, rfl, .inr ⟨session.pipeline, id, _, _, hkey, by decide, rfl⟩⟩

theorem queued_performCall (hkey : session.pipeline.cipherKey = key) (id : UInt64)
    (params : CallToolParams) :
    ∃ reply, Conn.queued (performCall env shared session id params).actions = [reply] ∧
      Otherwise key reply := by
  cases hgranted : shared.acl.check session.agentId params.name with
  | error e =>
      rw [performCall]
      simp only [hgranted]
      exact ⟨_, rfl, .inr ⟨session.pipeline, id, _, _, hkey, by decide, rfl⟩⟩
  | ok granted =>
      rw [performCall_granted hgranted]
      exact queued_answerFrame (by exact hkey) id params.name _

theorem queued_announce (session : Session) (id : UInt64) (params : CallToolParams) :
    (∀ notice ∈ Conn.queued (announce session id params).1, notice.header.msgType = .progress) ∧
      (announce session id params).2.pipeline.cipherKey = session.pipeline.cipherKey := by
  rw [announce]
  by_cases hwants : wantsProgress params = true
  · rw [if_pos hwants]
    refine ⟨fun notice hnotice => ?_, PayloadPipeline.cipherKey_wrap _⟩
    rw [List.mem_singleton.mp hnotice]
  · rw [if_neg hwants]
    exact ⟨fun _ h => absurd h List.not_mem_nil, rfl⟩

/-- If there is one answer, it is none of a cancelled call. -/
def Ordinary (key : Option Bytes32) (frames : List Frame) : Prop :=
  ∀ reply, frames.filter (fun reply => reply.header.msgType ≠ .progress) = [reply] →
    Otherwise key reply

theorem ordinary_append {notices : List Frame} {reply : Frame}
    (hnotices : ∀ notice ∈ notices, notice.header.msgType = .progress) (hreply : Otherwise key reply) :
    Ordinary key (notices ++ [reply]) := by
  intro only honly
  have hnone : notices.filter (fun reply => reply.header.msgType ≠ .progress) = [] := by
    rw [List.filter_eq_nil_iff]
    intro notice hnotice
    simpa using hnotices notice hnotice
  rw [List.filter_append, hnone, List.nil_append,
    List.filter_cons_of_pos (by simpa using hreply.ne_progress), List.filter_nil] at honly
  rw [← List.singleton_inj.mp honly]
  exact hreply

theorem ordinary_withParams {schema : Schema} {body : Session → schema.Body → Handled}
    (hbody : ∀ session' params, session'.pipeline.cipherKey = session.pipeline.cipherKey →
      Ordinary session.pipeline.cipherKey (Conn.queued (body session' params).actions)) :
    Ordinary session.pipeline.cipherKey
      (Conn.queued (withParams shared session schema env.now frame body).actions) := by
  rcases withParams_cases shared session frame env.now body with ⟨flow, _, _, _, heq⟩ | ⟨params, _, heq⟩
  · rw [heq]
    exact fun reply hreply => absurd hreply (List.cons_ne_nil _ _).symm
  · rw [heq]
    exact hbody _ params (PayloadPipeline.cipherKey_unwrap session.pipeline env.now frame)

/-- A call that was not cancelled. -/
theorem ordinary_handleCallTool (hactive : frame.header.requestId ∉ session.cancelled) :
    Ordinary session.pipeline.cipherKey
      (Conn.queued (handleCallTool env shared session frame).actions) := by
  rw [handleCallTool, if_neg hactive]
  refine ordinary_withParams fun session' params hkey => ?_
  obtain ⟨hnotices, hannounced⟩ := queued_announce session' frame.header.requestId params
  obtain ⟨only, honly, hotherwise⟩ := queued_performCall (hannounced.trans hkey)
    frame.header.requestId params
  rw [Conn.queued_append, honly]
  exact ordinary_append hnotices hotherwise

end Call

/-! ### A call as it is taken -/

section Take

variable {s : State} {env : Environment} {frame : Frame}

/-- The set of cancelled ids, by the history. -/
structure Marked (s : State) : Prop where
  authenticated : s.core.session.authenticated = true
  cancelled_iff : ∀ id, id ∈ s.core.session.cancelled ↔
    Since (· = Mark.cancel id) (· = Mark.call id) s.core.history

theorem dispatch_callTool {shared : Shared} {session : Session} (hauth : session.authenticated = true)
    (htype : frame.header.msgType = .callTool) :
    dispatch env shared session frame = handleCallTool env shared session frame := by
  simp only [dispatch, htype, hauth]

/-- A call is stopped by what was processed before it, and by nothing else. -/
theorem stops_iff (hx : Externals.Lossless) (hcodes : Externals.ReadsCodes) (hmarked : Marked s)
    (htype : frame.header.msgType = .callTool) : Stops s env frame ↔ CancelledBefore s frame := by
  have hcancelled := hmarked.cancelled_iff frame.header.requestId
  rcases handleFrame_dispatch env s.core.shared s.core.session frame with
    ⟨shmUp, e, herror, hhandled⟩ | ⟨shmUp, resolved, hresolved, hhandled⟩
  · refine iff_of_false (fun hstops => ?_) fun hbefore => ?_
    · obtain ⟨reply, hreply, _⟩ := hstops.refused
      rw [answersOf, hhandled] at hreply
      cases hreply
    · obtain ⟨⟨resolved, session, hresolved⟩, _⟩ := hbefore
      rw [hresolved] at herror
      cases herror
  · obtain ⟨hresolvedType, hid, _⟩ := resolveUplink_ok hresolved
    obtain ⟨session, hresolved, hdispatched, hpipeline, hsame, hauth⟩ : ∃ session,
        resolveUplink s.core.session frame = (.ok resolved, session) ∧
        handleFrame env s.core.shared s.core.session frame =
          dispatch env s.core.shared session resolved ∧
        session.pipeline = s.core.session.pipeline ∧
        session.cancelled = s.core.session.cancelled ∧ session.authenticated = true :=
      ⟨_, hresolved, hhandled, rfl, rfl, hmarked.authenticated⟩
    rw [dispatch_callTool hauth (hresolvedType.trans htype)] at hdispatched
    rw [CancelledBefore, ← hcancelled, ← hsame, ← hid]
    constructor
    · intro hstops
      refine ⟨⟨resolved, session, hresolved⟩, ?_⟩
      by_contra hactive
      obtain ⟨reply, hreply, _, hreads⟩ := hstops.refused
      rw [answersOf, hdispatched] at hreply
      rw [← hpipeline] at hreads
      exact (ordinary_handleCallTool hactive reply hreply).not_readsAs hx hcodes hreads
    · rintro ⟨_, hmem⟩
      constructor
      · intro shared' hshared
        refine alike_handleFrame fun resolved' session' hresolved' => ?_
        rw [hresolved] at hresolved'
        obtain ⟨hframe, rfl⟩ := Prod.mk.inj hresolved'
        obtain rfl := Except.ok.inj hframe
        exact alike_dispatch hshared fun hgranted => hgranted.2.2.1 hmem
      · have hreads := readsAs_wrap hx hcodes (congrArg PayloadPipeline.cipherKey hpipeline)
          resolved.header.requestId (-32800) "request cancelled" (by decide) (by decide)
        refine ⟨_, ?_, ?_, hreads⟩
        · rw [answersOf, hdispatched, handleCallTool_of_cancelled hmem]
          rfl
        · exact hid

omit [Externals] in
theorem marked_start {shared : Shared} {session : Session} (hauth : session.authenticated = true)
    (hempty : session.cancelled = ∅) : Marked (.start shared session) := by
  refine ⟨hauth, fun id => iff_of_false ?_ not_since_nil⟩
  change id ∉ session.cancelled
  rw [hempty]
  exact Finset.notMem_empty id

theorem Marked.processed (h : Marked s) {core : Cancelling.State}
    (hstep : Cancelling.step s.core (.frame env frame) = some core) (rest : Bytes) :
    Marked ⟨core, rest⟩ := by
  rw [Cancelling.step] at hstep
  split_ifs at hstep with hflow
  obtain rfl := Option.some.inj hstep
  rcases handleFrame_dispatch env s.core.shared s.core.session frame with
    ⟨shmUp, e, _, hhandled⟩ | ⟨shmUp, resolved, hresolved, hhandled⟩
  · rw [hhandled] at hflow
    cases hflow
  · obtain ⟨session, hresolved, hhandled, hsame, hauth⟩ : ∃ session,
        resolveUplink s.core.session frame = (.ok resolved, session) ∧
        handleFrame env s.core.shared s.core.session frame =
          dispatch env s.core.shared session resolved ∧
        session.cancelled = s.core.session.cancelled ∧ session.authenticated = true :=
      ⟨_, hresolved, hhandled, rfl, h.authenticated⟩
    have hmark : markOf s.core env frame = mark env.now session resolved := by
      rw [markOf, hresolved]
    refine ⟨Cancelling.authenticated_handleFrame h.authenticated, fun id => ?_⟩
    dsimp only
    rw [hhandled] at hflow ⊢
    rw [Cancelling.cancelled_dispatch hauth hflow, hmark, hsame]
    exact Cancelling.mem_cancelled_iff (h.cancelled_iff id) _

theorem Marked.notify (h : Marked s) (event : ResourceEvent) : Marked (s.notify event) := by
  rw [State.notify]
  cases Conn.notification s.core.session event with
  | none => exact h
  | some notification => exact ⟨h.authenticated, h.cancelled_iff⟩

theorem Marked.step {t : State} {op : Op} (h : Marked s) (hstep : step s op = some t) : Marked t := by
  cases op with
  | arrive chunk =>
      obtain rfl := Option.some.inj hstep
      exact ⟨h.authenticated, h.cancelled_iff⟩
  | take env =>
      rw [Buffered.step] at hstep
      rcases hdecode : Frame.decode s.buf with ⟨e | frame, rest⟩
      · rw [hdecode] at hstep
        cases hstep
      · rw [hdecode] at hstep
        cases frame with
        | none => cases hstep
        | some frame =>
            obtain ⟨core, hcore, rfl⟩ := Option.map_eq_some_iff.mp hstep
            exact h.processed hcore rest
  | event event =>
      obtain rfl := Option.some.inj hstep
      exact h.notify event
  | others change =>
      obtain rfl := Option.some.inj hstep
      exact ⟨h.authenticated, h.cancelled_iff⟩

end Take

/-- In every state of a run, a call whose cancellation was received is stopped exactly when a
cancellation was processed before it, with no call of the same id in between. -/
theorem stops_received_iff (hx : Externals.Lossless) (hcodes : Externals.ReadsCodes) {shared : Shared}
    {session : Session} (hauth : session.authenticated = true) (hempty : session.cancelled = ∅)
    {ops : List Op} {s : State} (hrun : Run step Free (.start shared session) ops s)
    (env : Environment) {frame : Frame} (htype : frame.header.msgType = .callTool) :
    (Received s env frame → Stops s env frame) ↔ (Received s env frame → CancelledBefore s frame) := by
  have hmarked : Marked s := hrun.invariant (fun _ _ _ h _ hstep => h.step hstep)
    (marked_start hauth hempty)
  rw [stops_iff hx hcodes hmarked htype]

/-! ### The two orders -/

section Orders

omit [Externals]

open Cancelling (callFrame cancelFrame environment)

def cancelledText : Bytes :=
  utf8 "\x7b\"code\":-32800,\"message\":\"request cancelled\"\x7d"

/-- The JSON text of the error of a cancelled call; of any other error, its code in unary. -/
def errorText (body : ErrorBody) : Bytes :=
  if body.code = -32800 ∧ body.message = "request cancelled" ∧ body.data.isNone then cancelledText
  else (if 0 ≤ body.code then 0 else 1) :: List.replicate body.code.natAbs 0

def readError (payload : Bytes) : Option ErrorBody :=
  if payload = cancelledText then some ⟨-32800, "request cancelled", none⟩
  else
    match payload with
    | [] => none
    | sign :: digits =>
        some ⟨if sign = 0 then (digits.length : Int) else -(digits.length : Int), "", none⟩

/-- The texts of one tool, of a cancellation of request 1 and of errors. -/
@[reducible] def withErrors : Externals :=
  { Cancelling.cancelOne with
    toVec := fun schema =>
      match schema with
      | .errorBody => errorText
      | other => Cancelling.cancelOne.toVec other
    fromSlice := fun schema payload =>
      match schema with
      | .errorBody => readError payload
      | other => Cancelling.cancelOne.fromSlice other payload }

theorem withErrors_lossless : @Externals.Lossless withErrors :=
  @Externals.Lossless.mk withErrors
    (@Externals.Lossless.decompress_compress .plain Externals.plain_lossless)
    (@Externals.Lossless.decrypt_encrypt .plain Externals.plain_lossless)
    (@Externals.Lossless.length_encrypt .plain Externals.plain_lossless)

theorem cancelledText_head : cancelledText.head? = some 0x7b := by decide +kernel

theorem withErrors_readsCodes : @Externals.ReadsCodes withErrors := by
  let _ : Externals := withErrors
  intro code message _ _
  change ∃ body, readError (errorText ⟨code, message, none⟩) = some body ∧ body.code = code
  rw [errorText]
  by_cases hcancelled : code = -32800 ∧ message = "request cancelled"
  · obtain ⟨rfl, rfl⟩ := hcancelled
    rw [if_pos ⟨rfl, rfl, rfl⟩, readError.eq_def, if_pos rfl]
    exact ⟨_, rfl, rfl⟩
  · rw [if_neg fun h => hcancelled ⟨h.1, h.2.1⟩]
    have hother : ∀ sign : UInt8, sign = 0 ∨ sign = 1 → ∀ digits, sign :: digits ≠ cancelledText := by
      intro sign hsign digits heq
      have hhead := cancelledText_head
      rw [← heq, List.head?_cons] at hhead
      obtain rfl := Option.some.inj hhead
      revert hsign
      decide
    by_cases hpos : 0 ≤ code
    · rw [if_pos hpos, readError.eq_def, if_neg (hother 0 (Or.inl rfl) _)]
      refine ⟨_, rfl, ?_⟩
      simp only [if_true, List.length_replicate]
      omega
    · rw [if_neg hpos, readError.eq_def, if_neg (hother 1 (Or.inr rfl) _)]
      refine ⟨_, rfl, ?_⟩
      have hne : ¬ (1 : UInt8) = 0 := by decide
      simp only [if_neg hne, List.length_replicate]
      omega

/-- What a run leaves in the buffer and in the set. -/
theorem run_of_buf {ops : List Op} {buf : Bytes} {cancelled : Bool}
    (h : letI : Externals := withErrors
      (exec step (fun _ _ => true) (.start oneToolServer (.new none)) ops).map
        (fun s => (s.buf, decide (1 ∈ s.core.session.cancelled))) = some (buf, cancelled)) :
    letI : Externals := withErrors
    ∃ s, Run step Free (.start oneToolServer (.new none)) ops s ∧ s.buf = buf ∧
      decide (1 ∈ s.core.session.cancelled) = cancelled ∧ Marked s := by
  let _ : Externals := withErrors
  obtain ⟨s, hexec, hs⟩ := Option.map_eq_some_iff.mp h
  have hrun : Run step Free (.start oneToolServer (.new none)) ops s :=
    (run_of_exec hexec).weaken fun _ _ _ => trivial
  obtain ⟨hbuf, hcancelled⟩ := Prod.mk.inj hs
  exact ⟨s, hrun, hbuf, hcancelled, hrun.invariant (fun _ _ _ h _ hstep => h.step hstep)
    (marked_start rfl rfl)⟩

/-- The cancellation comes first. -/
theorem stops_cancelled_before :
    letI : Externals := withErrors
    ∃ s, Run step Free (.start oneToolServer (.new none))
        [.arrive (cancelFrame.encode ++ callFrame.encode), .take environment] s ∧
      Received s environment callFrame ∧ Stops s environment callFrame := by
  let _ : Externals := withErrors
  have hexec : (exec step (fun _ _ => true) (.start oneToolServer (.new none))
      [.arrive (cancelFrame.encode ++ callFrame.encode), .take environment]).map
        (fun s => (s.buf, decide (1 ∈ s.core.session.cancelled))) =
      some (callFrame.encode, true) := by
    decide +kernel
  obtain ⟨s, hrun, hbuf, hcancelled, hmarked⟩ := run_of_buf hexec
  have hsince := (hmarked.cancelled_iff 1).mp (of_decide_eq_true hcancelled)
  have hreceived : Received s environment callFrame := by
    refine ⟨[], ?_, .inl ?_⟩
    · rw [hbuf]
      decide +kernel
    · obtain ⟨later, mark, earlier, heq, rfl, _⟩ := hsince
      rw [heq]
      exact List.mem_append_right _ List.mem_cons_self
  refine ⟨s, hrun, hreceived, ?_⟩
  exact (stops_received_iff withErrors_lossless withErrors_readsCodes rfl rfl hrun environment
    rfl).mpr (fun _ => ⟨⟨callFrame, s.core.session, rfl⟩, hsince⟩) hreceived

/-- A client calls and then cancels. Both frames lie in the buffer, and the tool is run. -/
theorem buffered_cancel_ignored :
    letI : Externals := withErrors
    ∃ s, Run step Free (.start oneToolServer (.new none))
        [.arrive (callFrame.encode ++ cancelFrame.encode)] s ∧
      Received s environment callFrame ∧ ¬ Stops s environment callFrame ∧
      (answersOf s environment callFrame).map (fun reply => reply.header.msgType) =
        [.callToolResult] := by
  let _ : Externals := withErrors
  let s : State := { State.start oneToolServer (.new none) with
    buf := [] ++ (callFrame.encode ++ cancelFrame.encode) }
  have hdecode : Frame.decode s.buf = (.ok (some callFrame), cancelFrame.encode) :=
    Frame.decode_encode_append (by decide +kernel) _
  have hmark : markOf s.core environment cancelFrame = .cancel 1 :=
    (Cancelling.cancelFrame_read (if_pos rfl) rfl).2.1
  have hanswers : (answersOf s environment callFrame).map (fun reply => reply.header.msgType) =
      [.callToolResult] := by
    decide +kernel
  refine ⟨s, .cons rfl trivial (.nil s), ?_, fun hstops => ?_, hanswers⟩
  · refine ⟨_, hdecode, .inr ⟨[], cancelFrame, [], ?_, ?_, by decide +kernel, hmark⟩⟩
    · rw [Frame.encodeAll_nil, List.nil_append, List.append_nil]
    · exact fun _ h => absurd h List.not_mem_nil
  · obtain ⟨reply, hreply, _, herror, _⟩ := hstops.refused
    rw [hreply, List.map_singleton, herror] at hanswers
    exact absurd hanswers (by decide)

end Orders

end Buffered

end Ohmcp
