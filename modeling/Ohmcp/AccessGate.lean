import Ohmcp.Notifications
import Ohmcp.AuthAgreement

/-! The gate of a session. Before the token is verified a session answers nothing but that, whatever
the registry and the cache hold; a failed `Auth` ends it; and a tool is run, or a cached result sent,
only after the access list granted the tool to the session's agent for the same frame. -/

open Transition

namespace Ohmcp

variable [Externals]

/-! ### What the handling of a frame depends on -/

/-- The session goes on in the same way. -/
structure Handled.Alike (handled handled' : Handled) : Prop where
  session_eq : handled'.session = handled.session
  actions_eq : handled'.actions = handled.actions
  flow_eq : handled'.flow = handled.flow

/-- Two servers that differ in their tools and in their caches at most. -/
structure SameButTools (shared shared' : Shared) : Prop where
  token_eq : shared'.token = shared.token
  acl_eq : shared'.acl = shared.acl
  tools_eq : shared'.registry.tools = shared.registry.tools
  resources_eq : shared'.registry.resources = shared.registry.resources
  resourceContents_eq : shared'.registry.resourceContents = shared.registry.resourceContents
  prompts_eq : shared'.registry.prompts = shared.registry.prompts
  promptHandlers_eq : shared'.registry.promptHandlers = shared.registry.promptHandlers

section Alike

variable {env : Environment} {shared shared' : Shared} {session : Session} {frame : Frame}

theorem alike_answer (session : Session) (id : UInt64) (msgType : MsgType) (payload : Bytes) :
    (answer shared session id msgType payload).Alike (answer shared' session id msgType payload) :=
  ⟨rfl, rfl, rfl⟩

theorem alike_withParams {schema : Schema} {now : Nat} {body body' : Session → schema.Body → Handled}
    (hbody : ∀ session' params, Opens schema now session frame params →
      session' = { session with pipeline := (session.pipeline.unwrap now frame).2 } →
      (body session' params).Alike (body' session' params)) :
    (withParams shared session schema now frame body).Alike
      (withParams shared' session schema now frame body') := by
  rw [withParams, withParams]
  rcases hunwrap : session.pipeline.unwrap now frame with ⟨e | data, pipeline⟩
  · exact ⟨rfl, rfl, rfl⟩
  · dsimp only
    rcases hparams : Externals.fromSlice schema data with _ | params
    · exact ⟨rfl, rfl, rfl⟩
    · exact hbody _ params ⟨data, by rw [hunwrap], hparams⟩ (by rw [hunwrap])

theorem alike_auth (htoken : shared'.token = shared.token) :
    (handleAuth env shared session frame).Alike (handleAuth env shared' session frame) := by
  rw [handleAuth, handleAuth, htoken]
  cases Externals.fromSlice .authParams frame.payload with
  | none => exact ⟨rfl, rfl, rfl⟩
  | some params =>
      dsimp only
      rcases acceptedAuth shared.token params with e | accepted
      · exact ⟨rfl, rfl, rfl⟩
      · rcases authClientPub params with e | clientPub
        · exact ⟨rfl, rfl, rfl⟩
        · cases accepted with
          | none => exact ⟨rfl, rfl, rfl⟩
          | some accepted => exact ⟨rfl, rfl, rfl⟩

theorem alike_shmSetup :
    (handleShmSetup env shared session frame).Alike (handleShmSetup env shared' session frame) := by
  rw [handleShmSetup, handleShmSetup]
  split_ifs
  · exact ⟨rfl, rfl, rfl⟩
  · exact ⟨rfl, rfl, rfl⟩

theorem alike_subscribe (hsame : SameButTools shared shared') :
    (handleSubscribe env shared session frame).Alike
      (handleSubscribe env shared' session frame) := by
  rw [handleSubscribe, handleSubscribe]
  refine alike_withParams fun session' params _ _ => ?_
  have hsubscribable : shared'.registry.hasResource params.uri =
      shared.registry.hasResource params.uri := by
    rw [ToolRegistry.hasResource, ToolRegistry.hasResource, hsame.resourceContents_eq]
  rw [hsubscribable]
  by_cases hmissing : frame.header.msgType = .subscribeResource ∧
      shared.registry.hasResource params.uri = false
  · simp only [if_pos hmissing]
    exact alike_answer ..
  · simp only [if_neg hmissing]
    exact alike_answer ..

/-- Before authentication, of the server only the token counts. -/
theorem alike_dispatch_of_shut (hauth : session.authenticated = false)
    (htoken : shared'.token = shared.token) :
    (dispatch env shared session frame).Alike (dispatch env shared' session frame) := by
  by_cases htype : frame.header.msgType = .auth
  · simp only [dispatch, htype]
    exact alike_auth htoken
  · rw [dispatch_of_shut hauth htype, dispatch_of_shut hauth htype]
    exact alike_answer session _ _ _

/-- A frame that is no call the access list grants is handled alike whatever the tools are and
whatever the cache holds. -/
theorem alike_dispatch (hsame : SameButTools shared shared')
    (hcall : ¬ Granted env shared session frame) :
    (dispatch env shared session frame).Alike (dispatch env shared' session frame) := by
  cases hauth : session.authenticated with
  | false => exact alike_dispatch_of_shut hauth hsame.token_eq
  | true =>
      cases htype : frame.header.msgType with
      | auth =>
          simp only [dispatch, htype]
          exact alike_auth hsame.token_eq
      | shmSetup =>
          simp only [dispatch, htype, hauth]
          exact alike_shmSetup
      | listTools =>
          simp only [dispatch, htype, hauth, hsame.tools_eq]
          exact alike_answer ..
      | listResources =>
          simp only [dispatch, htype, hauth, hsame.resources_eq]
          exact alike_answer ..
      | listPrompts =>
          simp only [dispatch, htype, hauth, hsame.prompts_eq]
          exact alike_answer ..
      | readResource =>
          simp only [dispatch, htype, hauth]
          refine alike_withParams fun session' params _ _ => ?_
          rw [ToolRegistry.readResource, ToolRegistry.readResource, hsame.resourceContents_eq]
          cases shared.registry.resourceContents.lookup params.uri with
          | none => exact alike_answer ..
          | some contents => exact alike_answer ..
      | getPrompt =>
          simp only [dispatch, htype, hauth]
          refine alike_withParams fun session' params _ _ => ?_
          rw [ToolRegistry.getPrompt, ToolRegistry.getPrompt, hsame.promptHandlers_eq]
          cases shared.registry.promptHandlers.lookup params.name with
          | none => exact alike_answer ..
          | some handler => exact alike_answer ..
      | subscribeResource | unsubscribeResource =>
          simp only [dispatch, htype, hauth]
          exact alike_subscribe hsame
      | cancel =>
          simp only [dispatch, htype, hauth]
          rw [handleCancel, handleCancel]
          rcases session.pipeline.unwrap env.now frame with ⟨e | data, pipeline⟩
          · exact ⟨rfl, rfl, rfl⟩
          · dsimp only
            cases Externals.fromSlice .cancelParams data with
            | none => exact ⟨rfl, rfl, rfl⟩
            | some params => exact ⟨rfl, rfl, rfl⟩
      | callTool =>
          simp only [dispatch, htype, hauth]
          rw [handleCallTool, handleCallTool]
          by_cases hcancelled : frame.header.requestId ∈ session.cancelled
          · simp only [if_pos hcancelled]
            exact alike_answer ..
          simp only [if_neg hcancelled]
          refine alike_withParams fun session' params hopens hsession => ?_
          have hagent : (announce session' frame.header.requestId params).2.agentId =
              session.agentId := by
            rw [hsession, announce]
            split_ifs
            · rfl
            · rfl
          rcases hcheck : shared.acl.check session.agentId params.name with e | ⟨⟩
          · rw [performCall, performCall, hsame.acl_eq, hagent, hcheck]
            exact ⟨rfl, rfl, rfl⟩
          · exact absurd ⟨htype, hauth, hcancelled, params, hopens, hcheck⟩ hcall
      | _ =>
          simp only [dispatch, htype, hauth]
          exact ⟨rfl, rfl, rfl⟩

theorem alike_handleFrame
    (hdispatch : ∀ resolved session', resolveUplink session frame = (.ok resolved, session') →
      (dispatch env shared session' resolved).Alike (dispatch env shared' session' resolved)) :
    (handleFrame env shared session frame).Alike (handleFrame env shared' session frame) := by
  rw [handleFrame, handleFrame]
  rcases hresolve : resolveUplink session frame with ⟨e | resolved, session'⟩
  · exact ⟨rfl, rfl, rfl⟩
  · exact hdispatch resolved session' hresolve

end Alike

namespace Live

/-! ### What a turn may do -/

namespace Entry

/-- An `Auth` frame whose response verifies against the token. -/
def Verifies (token : Bytes) : Entry → Prop
  | handled _ shared session frame => ∃ resolved params nonce clientPub,
      (resolveUplink session frame).1 = .ok resolved ∧
        Accepts shared resolved params token nonce clientPub
  | notified _ _ _ _ => False

/-- An `Auth` frame that fails. -/
def FailsAuth (token : Bytes) : Entry → Prop
  | handled env shared session frame =>
      frame.header.msgType = .auth ∧ ¬ (handled env shared session frame).Verifies token
  | notified _ _ _ _ => False

/-- The turn changes nothing the connections share, and would be the same with any registry, any
cache and any access list. -/
def Blind : Entry → Prop
  | handled env shared session frame =>
      (handleFrame env shared session frame).shared = shared ∧
        ∀ shared' : Shared, shared'.token = shared.token →
          (handleFrame env shared session frame).Alike (handleFrame env shared' session frame)
  | notified _ _ _ _ => False

/-- No tool is run and no cached result is sent: the turn would be the same with other tools and
another cache, and the cache is as it was. -/
def Untooled : Entry → Prop
  | handled env shared session frame =>
      (handleFrame env shared session frame).shared.cache = shared.cache ∧
        (∀ shared' : Shared, SameButTools shared shared' →
          (handleFrame env shared session frame).Alike (handleFrame env shared' session frame)) ∧
        ∀ reply ∈ (handled env shared session frame).frames,
          reply.header.msgType ≠ .callToolResult ∧ reply.header.flags.cacheRef = false
  | notified _ _ _ frame =>
      frame.header.msgType ≠ .callToolResult ∧ frame.header.flags.cacheRef = false

/-- A call that the access list grants to the session's agent is answered, from the cache or by a run
of the tool it names. -/
def Called : Entry → Prop
  | handled env shared session frame => ∃ (params : CallToolParams) (sender : Session)
      (notices : List Frame), session.authenticated = true ∧
        shared.acl.check session.agentId params.name = .ok () ∧
        (∀ notice ∈ notices, Plain .progress notice) ∧
        (handled env shared session frame).frames = notices ++
          [(answerShipment sender frame.header.requestId params.name (answerCall env.toMoment
            shared.registry shared.cache session.delivered params.name params.arguments).1).frame]
  | notified _ _ _ _ => False

end Entry

/-- What a session may queue before the token is verified. -/
def Harmless (frame : Frame) : Prop :=
  frame.header.msgType = .authResult ∨ ∃ (pipeline : PayloadPipeline) (id : UInt64),
    frame = (pipeline.wrap .error id
      (Externals.toVec .errorBody ⟨-32001, "authentication required", none⟩)).1

/-! ### One frame -/

section Frames

variable {env : Environment} {shared : Shared} {session : Session} {frame : Frame} {token : Bytes}

variable (frame) in
omit [Externals] in
theorem resolveUplink_of_none (hnone : session.shmUp = none) :
    (∃ e, resolveUplink session frame = (.error e, session)) ∨
      resolveUplink session frame = (.ok frame, session) := by
  have hsame : { session with shmUp := none } = session := by
    rw [← hnone]
  cases href : frame.header.flags.shmRef with
  | true =>
      rw [resolveUplink, hnone, resolveRef.eq_def]
      simp only [href, if_true, hsame]
      exact .inl ⟨_, rfl⟩
  | false =>
      exact .inr (resolveUplink_inline session href)

theorem token_of_accepted {params : AuthParams} {own nonce : Bytes}
    (h : acceptedAuth (some token) params = .ok (some (own, nonce))) : own = token := by
  rw [acceptedAuth.eq_def] at h
  cases hnonce : params.nonce with
  | none =>
      rw [hnonce] at h
      cases h
  | some text =>
      rw [hnonce] at h
      dsimp only at h
      rcases hunhex : unhex params.token with e | response
      · rw [hunhex] at h
        cases h
      · rw [hunhex] at h
        have hsome := Except.ok.inj h
        dsimp only at hsome
        split_ifs at hsome
        exact (Prod.mk.inj (Option.some.inj hsome)).1.symm

/-- A failed `Auth` ends the session. -/
theorem flow_of_failsAuth (htoken : shared.token = some token)
    (hfails : (Entry.handled env shared session frame).FailsAuth token) :
    (handleFrame env shared session frame).flow ≠ .next := by
  obtain ⟨htype, hverifies⟩ := hfails
  rcases handleFrame_cases env shared session frame with
    ⟨shmUp, e, _, hhandled⟩ | ⟨shmUp, resolved, hresolve, heffect⟩
  · rw [hhandled]
    intro h
    cases h
  rw [← (resolveUplink_ok hresolve).1] at htype
  have hother : ∀ {msgType : MsgType} {p : Prop}, resolved.header.msgType = msgType →
      msgType ≠ .auth → p := by
    intro msgType p hmsgType hne
    exact absurd (hmsgType.symm.trans htype) hne
  generalize handleFrame env shared session frame = handled at heffect
  cases heffect with
  | fails pipeline flow hkey hnext => exact hnext
  | rejects params hrejects => exact fun h => by cases h
  | accepts params own nonce clientPub haccepts =>
      have hown : own = token := token_of_accepted (htoken ▸ haccepts.accepted)
      subst hown
      exact absurd ⟨resolved, params, nonce, clientPub, by rw [hresolve], haccepts⟩ hverifies
  | denies hauth hne => exact absurd htype hne
  | setupFails hauth hmsgType => exact fun h => by cases h
  | setup pipeline shm shmUp' bytes reply hauth hmsgType => exact hother hmsgType (by decide)
  | replies pipeline reply result hauth hresult hne => exact absurd htype hne.1
  | subscribes pipeline reply uri subscribed hauth hopens hsubscribed =>
      rcases hsubscribed with ⟨hmsgType, _⟩ | ⟨hmsgType, _⟩
      · exact hother hmsgType (by decide)
      · exact hother hmsgType (by decide)
  | refusesSubscription pipeline reply uri hauth hopens hmsgType => exact hother hmsgType (by decide)
  | cancels pipeline cancelled hauth hmsgType => exact hother hmsgType (by decide)
  | ignores hauth hresult =>
      rw [htype] at hresult
      cases hresult
  | callCancelled pipeline reply hauth hmsgType => exact hother hmsgType (by decide)
  | callDenied pipeline notices reply params hauth hmsgType => exact hother hmsgType (by decide)
  | called pipeline shm notices params sender hauth hmsgType => exact hother hmsgType (by decide)

/-- Before authentication, a frame that does not verify changes the pipeline only, and is answered
by nothing or by something harmless. -/
theorem handleFrame_of_shut (htoken : shared.token = some token)
    (hauth : session.authenticated = false) (hnone : session.shmUp = none)
    (hverifies : ¬ (Entry.handled env shared session frame).Verifies token) :
    (∃ pipeline, (handleFrame env shared session frame).session =
        { session with pipeline := pipeline }) ∧
      (handleFrame env shared session frame).shared = shared ∧
      ∀ reply ∈ (Entry.handled env shared session frame).frames, Harmless reply := by
  have hframes : (Entry.handled env shared session frame).frames =
      Conn.queued (handleFrame env shared session frame).actions := rfl
  rw [hframes]
  rcases resolveUplink_of_none frame hnone with ⟨e, hresolve⟩ | hresolve
  · rw [handleFrame, hresolve]
    exact ⟨⟨session.pipeline, rfl⟩, rfl, fun _ h => absurd h List.not_mem_nil⟩
  have heffect : Effect env shared session frame (handleFrame env shared session frame) := by
    rw [handleFrame_of_ok hresolve]
    exact effect_dispatch env shared session frame
  have hopen : ∀ {p : Prop}, session.authenticated = true → p := by
    intro p htrue
    rw [hauth] at htrue
    cases htrue
  have hone : ∀ {only : Frame}, Harmless only → ∀ reply ∈ [only], Harmless reply := by
    intro only honly reply hreply
    rw [List.mem_singleton.mp hreply]
    exact honly
  generalize handleFrame env shared session frame = handled at heffect
  cases heffect with
  | fails pipeline flow => exact ⟨⟨pipeline, rfl⟩, rfl, fun _ h => absurd h List.not_mem_nil⟩
  | rejects params hrejects => exact ⟨⟨session.pipeline, rfl⟩, rfl, hone (.inl rfl)⟩
  | accepts params own nonce clientPub haccepts =>
      have hown : own = token := token_of_accepted (htoken ▸ haccepts.accepted)
      subst hown
      exact absurd ⟨frame, params, nonce, clientPub, by rw [hresolve], haccepts⟩ hverifies
  | denies _ htype =>
      exact ⟨⟨_, rfl⟩, rfl, hone (.inr ⟨session.pipeline, frame.header.requestId, rfl⟩)⟩
  | setupFails htrue => exact hopen htrue
  | setup _ _ _ _ _ htrue => exact hopen htrue
  | replies _ _ _ htrue => exact hopen htrue
  | subscribes _ _ _ _ htrue => exact hopen htrue
  | refusesSubscription _ _ _ htrue => exact hopen htrue
  | cancels _ _ htrue => exact hopen htrue
  | ignores htrue => exact hopen htrue
  | callCancelled _ _ htrue => exact hopen htrue
  | callDenied _ _ _ _ htrue => exact hopen htrue
  | called _ _ _ _ _ htrue => exact hopen htrue

theorem blind_of_shut (hauth : session.authenticated = false)
    (hshared : (handleFrame env shared session frame).shared = shared) :
    (Entry.handled env shared session frame).Blind := by
  refine ⟨hshared, fun shared' htoken => alike_handleFrame fun resolved session' hresolve => ?_⟩
  have hsession := (resolveUplink_ok hresolve).2.2
  refine alike_dispatch_of_shut ?_ htoken
  rw [hsession]
  exact hauth

theorem opens_unique {schema : Schema} {now : Nat} {params params' : schema.Body}
    (hopens : Opens schema now session frame params)
    (hopens' : Opens schema now session frame params') : params = params' := by
  obtain ⟨data, hdata, hparams⟩ := hopens
  obtain ⟨data', hdata', hparams'⟩ := hopens'
  rw [hdata] at hdata'
  cases hdata'
  rw [hparams] at hparams'
  exact Option.some.inj hparams'

/-- A frame is a call that is granted, or no tool has to do with it. -/
theorem gated_handled (env : Environment) (shared : Shared) (session : Session) (frame : Frame) :
    (Entry.handled env shared session frame).Untooled ∨
      (Entry.handled env shared session frame).Called := by
  have hframes : (Entry.handled env shared session frame).frames =
      Conn.queued (handleFrame env shared session frame).actions := rfl
  rcases handleFrame_cases env shared session frame with
    ⟨shmUp, e, hresolve, hhandled⟩ | ⟨shmUp, resolved, hresolve, heffect⟩
  · refine .inl ⟨by rw [hhandled], fun shared' hsame => alike_handleFrame ?_, ?_⟩
    · intro resolved session' hresolved
      rw [hresolved] at hresolve
      cases hresolve
    · rw [hframes, hhandled]
      exact fun _ h => absurd h List.not_mem_nil
  have hid : resolved.header.requestId = frame.header.requestId := (resolveUplink_ok hresolve).2.1
  by_cases hcalled : Granted env shared { session with shmUp := shmUp } resolved
  · obtain ⟨htype, hauth, hactive, params, hopens, hgranted⟩ := hcalled
    refine .inr ?_
    have hother : ∀ {msgType : MsgType} {p : Prop}, resolved.header.msgType = msgType →
        msgType ≠ .callTool → p := by
      intro msgType p hmsgType hne
      exact absurd (hmsgType.symm.trans htype) hne
    rw [Entry.Called, hframes]
    generalize handleFrame env shared session frame = handled at heffect
    cases heffect with
    | fails pipeline flow hkey hnext hreturned hrejects hsetup hclosed =>
        exact absurd hopens (hclosed htype params)
    | rejects params' hrejects => exact hother hrejects.msgType_eq (by decide)
    | accepts params' token nonce clientPub haccepts => exact hother haccepts.msgType_eq (by decide)
    | denies hfalse => exact absurd (hauth.symm.trans hfalse) (by decide)
    | setupFails _ hmsgType => exact hother hmsgType (by decide)
    | setup pipeline shm shmUp' bytes reply _ hmsgType => exact hother hmsgType (by decide)
    | replies pipeline reply result _ hresult hne => exact absurd htype hne.2.1
    | subscribes pipeline reply uri subscribed _ _ hsubscribed =>
        rcases hsubscribed with ⟨hmsgType, _⟩ | ⟨hmsgType, _⟩
        · exact hother hmsgType (by decide)
        · exact hother hmsgType (by decide)
    | refusesSubscription pipeline reply uri _ _ hmsgType => exact hother hmsgType (by decide)
    | cancels pipeline cancelled _ hmsgType => exact hother hmsgType (by decide)
    | ignores _ hresult =>
        rw [htype] at hresult
        cases hresult
    | callCancelled pipeline reply _ _ _ _ hcancelled => exact absurd hcancelled hactive
    | callDenied pipeline notices reply params' _ _ hopens' hdenied =>
        rw [opens_unique hopens' hopens] at hdenied
        exact absurd hgranted hdenied
    | called pipeline shm notices params' sender _ _ hopens' hgranted' _ hnotices =>
        refine ⟨params', sender, notices, hauth, hgranted', fun notice h => (hnotices notice h).2, ?_⟩
        rw [Conn.queued_append, Conn.queued_map_queue, hid]
        rfl
  · refine .inl ⟨?_, fun shared' hsame => alike_handleFrame ?_, ?_⟩
    · exact heffect.cache_eq hcalled
    · intro resolved' session' hresolved
      rw [hresolved] at hresolve
      cases hresolve
      exact alike_dispatch hsame hcalled
    · rw [hframes]
      intro reply hreply
      have hdiffer : ∀ msgType ∈ replyTypes, msgType ≠ .callToolResult := by decide
      rcases heffect.queued_cases hreply with ⟨msgType, hmem, hplain⟩ | ⟨hgranted, _⟩
      · rw [hplain.msgType_eq]
        exact ⟨hdiffer msgType hmem, hplain.cacheRef_eq⟩
      · exact absurd hgranted hcalled

end Frames

/-! ### Runs -/

/-- A session before the token is verified. -/
structure Shut (token : Bytes) (s : State) : Prop where
  session_eq : ∃ pipeline, s.session = { Session.new (some token) with pipeline := pipeline }
  harmless : ∀ frame ∈ s.frames, Harmless frame
  blind : ∀ entry ∈ s.log, entry.Blind

/-- The gate in every state a session reaches. -/
structure Gate (token : Bytes) (s : State) : Prop where
  token_eq : s.shared.token = some token
  shut : (∀ entry ∈ s.log, ¬ entry.Verifies token) → Shut token s
  last : ∀ before entry after, s.log = before ++ entry :: after → entry.FailsAuth token →
    after = [] ∧ s.flow ≠ .next
  gated : ∀ entry ∈ s.log, entry.Untooled ∨ entry.Called

section Runs

variable {s t : State} {token : Bytes}

theorem gate_start {shared : Shared} (htoken : shared.token = some token)
    (past pending : List ResourceEvent) : Gate token (.start shared past pending) where
  token_eq := htoken
  shut _ := by
    refine ⟨⟨.new, ?_⟩, fun _ h => absurd h List.not_mem_nil, fun _ h => absurd h List.not_mem_nil⟩
    rw [State.start, htoken]
    rfl
  last _ _ _ h := absurd h.symm (List.append_ne_nil_of_right_ne_nil _ (List.cons_ne_nil _ _))
  gated _ h := absurd h List.not_mem_nil

theorem Gate.aside (h : Gate token s) (haside : Aside s t) : Gate token t where
  token_eq := haside.token_eq.trans h.token_eq
  shut hnone := by
    obtain ⟨⟨pipeline, hsession⟩, hharmless, hblind⟩ := h.shut (haside.log_eq ▸ hnone)
    exact ⟨⟨pipeline, haside.session_eq.trans hsession⟩, haside.frames_eq ▸ hharmless,
      haside.log_eq ▸ hblind⟩
  last before entry after hlog hfails := by
    obtain ⟨hafter, hflow⟩ := h.last before entry after (haside.log_eq ▸ hlog) hfails
    exact ⟨hafter, haside.flow_eq hflow ▸ hflow⟩
  gated := by
    rw [haside.log_eq]
    exact h.gated

/-- A session that goes on has had no failed `Auth`. -/
theorem Gate.last_snoc (h : Gate token s) (hnext : s.flow = .next) {entry : Entry}
    {before after : List Entry} {other : Entry} (hlog : s.log ++ [entry] = before ++ other :: after)
    (hfails : other.FailsAuth token) : after = [] ∧ other = entry := by
  rcases List.eq_nil_or_concat after with rfl | ⟨after, last, rfl⟩
  · obtain ⟨_, hlast⟩ := List.append_inj' hlog rfl
    cases hlast
    exact ⟨rfl, rfl⟩
  · rw [List.concat_eq_append, ← List.cons_append, ← List.append_assoc] at hlog
    obtain ⟨hinit, _⟩ := List.append_inj' hlog rfl
    exact absurd hnext (h.last before other after hinit hfails).2

theorem Gate.handle (h : Gate token s) (hnext : s.flow = .next) (env : Environment)
    (frame : Frame) : Gate token (s.handle env frame) := by
  obtain ⟨queued, wire, hhandle, hframes⟩ := s.handle_eq env frame
  rw [hhandle]
  refine ⟨(token_handleFrame ..).trans h.token_eq, ?_, ?_, ?_⟩
  · intro hnone
    change ∀ entry ∈ s.log ++ [Entry.handled env s.shared s.session frame],
      ¬ entry.Verifies token at hnone
    obtain ⟨hold, hnew⟩ := List.forall_mem_append.mp hnone
    obtain ⟨⟨pipeline, hsession⟩, hharmless, hblind⟩ := h.shut hold
    have hauth : s.session.authenticated = false := by
      rw [hsession]
      rfl
    obtain ⟨⟨pipeline', hsession'⟩, hshared, hreplies⟩ :=
      handleFrame_of_shut h.token_eq hauth (by rw [hsession]; rfl)
        (hnew (.handled env s.shared s.session frame) (List.mem_singleton_self _))
    refine ⟨⟨pipeline', ?_⟩, ?_, ?_⟩
    · exact hsession'.trans (by rw [hsession])
    · change ∀ reply ∈ framesOf wire ++ queued, Harmless reply
      rw [hframes]
      exact List.forall_mem_append.mpr ⟨hharmless, hreplies⟩
    · exact List.forall_mem_append.mpr
        ⟨hblind, List.forall_mem_singleton.mpr (blind_of_shut hauth hshared)⟩
  · intro before entry after hlog hfails
    obtain ⟨hafter, rfl⟩ := h.last_snoc hnext hlog hfails
    exact ⟨hafter, flow_of_failsAuth h.token_eq hfails⟩
  · exact List.forall_mem_append.mpr
      ⟨h.gated, List.forall_mem_singleton.mpr (gated_handled env s.shared s.session frame)⟩

theorem Gate.poll (h : Gate token s) (hnext : s.flow = .next) : Gate token s.poll := by
  rcases s.poll_cases with ⟨hpoll, _⟩ | ⟨index, event, events, frame, pipeline, hrecv, hnote, hpoll⟩
  · rw [hpoll]
    exact ⟨h.token_eq, fun hnone => ⟨(h.shut hnone).session_eq, (h.shut hnone).harmless,
      (h.shut hnone).blind⟩, h.last, h.gated⟩
  rw [hpoll]
  refine ⟨h.token_eq, ?_, ?_, ?_⟩
  · intro hnone
    change ∀ entry ∈ s.log ++ [_], ¬ entry.Verifies token at hnone
    obtain ⟨⟨own, hsession⟩, _, _⟩ := h.shut (List.forall_mem_append.mp hnone).1
    have hsubscribed : s.session.subscribed = ∅ := by
      rw [hsession]
      rfl
    have hauth : s.session.authenticated = false := by
      rw [hsession]
      rfl
    cases event with
    | updated uri =>
        rw [Conn.notification, hsubscribed, if_neg (Finset.notMem_empty uri)] at hnote
        cases hnote
    | listChanged =>
        rw [Conn.notification, hauth, if_neg Bool.false_ne_true] at hnote
        cases hnote
  · intro before entry after hlog hfails
    obtain ⟨_, rfl⟩ := h.last_snoc hnext hlog hfails
    exact hfails.elim
  · refine List.forall_mem_append.mpr ⟨h.gated, List.forall_mem_singleton.mpr (.inl ?_)⟩
    cases event with
    | updated uri =>
        rw [Conn.notification] at hnote
        split_ifs at hnote
        have hplain := plain_wrap s.session.pipeline .resourceUpdated 0
          (Externals.toVec .resourceUpdatedParams ⟨uri⟩)
        rw [congrArg Prod.fst (Option.some.inj hnote)] at hplain
        exact ⟨by rw [hplain.msgType_eq]; decide, hplain.cacheRef_eq⟩
    | listChanged =>
        rw [Conn.notification] at hnote
        split_ifs at hnote
        have hplain := plain_wrap s.session.pipeline .resourceListChanged 0 (utf8 "\x7b\x7d")
        rw [congrArg Prod.fst (Option.some.inj hnote)] at hplain
        exact ⟨by rw [hplain.msgType_eq]; decide, hplain.cacheRef_eq⟩

theorem Gate.step {op : Op} (h : Gate token s) (hstep : step s op = some t) : Gate token t := by
  rcases step_cases hstep with ⟨env, frame, _, hnext, rfl⟩ | ⟨_, hnext, rfl⟩ | haside
  · exact h.handle hnext env frame
  · exact h.poll hnext
  · exact h.aside haside

end Runs

/-- **The gate.** A server has a token. In every state a session reaches: as long as no `Auth` frame
has verified, the session is as new but for its pipeline, has queued nothing but harmless frames, and
each of its turns would be the same with any registry and any cache; an `Auth` that fails is the last
turn; and in each turn no tool and no cached result has a part, unless the access list granted the
tool to the session's agent in that turn. -/
theorem access_gated {shared : Shared} {token : Bytes} (htoken : shared.token = some token)
    {past pending : List ResourceEvent} {ops : List Op} {s : State}
    (hrun : Run step Free (.start shared past pending) ops s) :
    ((∀ entry ∈ s.log, ¬ entry.Verifies token) →
        (∃ pipeline, s.session = { Session.new (some token) with pipeline := pipeline }) ∧
          (∀ frame ∈ s.frames, Harmless frame) ∧ ∀ entry ∈ s.log, entry.Blind) ∧
      (∀ before entry after, s.log = before ++ entry :: after → entry.FailsAuth token →
        after = []) ∧
      ∀ entry ∈ s.log, entry.Untooled ∨ entry.Called := by
  have h : Gate token s := hrun.invariant (fun _ _ _ h _ hstep => h.step hstep)
    (gate_start htoken past pending)
  refine ⟨?_, ?_, h.gated⟩
  · intro hnone
    obtain ⟨hsession, hharmless, hblind⟩ := h.shut hnone
    exact ⟨hsession, hharmless, hblind⟩
  · exact fun before entry after hlog hfails => (h.last before entry after hlog hfails).1

/-! ### A session from its first frame to its last -/

section Session

omit [Externals]

open AuthRuns

/-- An `Auth` with a response that is none. -/
def guessed : AuthParams := { captured with token := "00" }

def callJson : Bytes := utf8 "\x7b\"name\":\"t\",\"arguments\":null\x7d"

/-- HMAC-SHA256, X25519 and JSON on the inputs of the session below. -/
@[reducible] def gateExternals : Externals := { handshake with
  fromSlice := fun schema => match schema with
    | .authParams => fun body => [captured, guessed].find? fun params => authJson params = body
    | .callToolParams => fun body => if body = callJson then some ⟨"t", .null, none⟩ else none
    | _ => fun _ => none }

/-- A tool, and nobody who may call it yet. -/
def gatedServer : Shared where
  registry := ToolRegistry.new.register "t" "" .null false fun _ _ => ⟨[], false⟩
  cache := .new 65536 cacheTtl
  acl := .new
  token := some sharedToken

/-- The client authenticates, calls the tool and tries another `Auth`. -/
def gateOps : List Op :=
  [.frame environment (AuthRuns.authFrame captured),
    .frame environment (.new .callTool 2 callJson),
    .frame environment (AuthRuns.authFrame guessed)]

/-- A ping is denied; then an `Auth` verifies, a call is granted, and a second `Auth` fails and is the
last turn. -/
theorem access_gated_session :
    letI : Externals := gateExternals
    ∃ s t, Run step Free (.start gatedServer [] []) [.frame environment (.new .ping 1 [])] s ∧
      s.frames.map (fun frame => frame.header.msgType) = [.error] ∧
      (∀ frame ∈ s.frames, Harmless frame) ∧ Run step Free s gateOps t ∧
      t.frames.map (fun frame => frame.header.msgType) =
        [.error, .authResult, .callToolResult, .authResult] ∧ t.log.length = 4 ∧
      (∀ before entry after, t.log = before ++ entry :: after → entry.FailsAuth sharedToken →
        after = []) ∧
      ∀ entry ∈ t.log, entry.Untooled ∨ entry.Called := by
  let _ : Externals := gateExternals
  let s := (State.start gatedServer [] []).handle environment (.new .ping 1 [])
  have hexec : (exec step (fun _ _ => true) s gateOps).map (fun t =>
      (s.frames.map (fun frame => frame.header.msgType),
        t.frames.map (fun frame => frame.header.msgType), t.log.length)) =
      some ([.error], [.error, .authResult, .callToolResult, .authResult], 4) := by
    decide +kernel
  obtain ⟨t, ht, hview⟩ := Option.map_eq_some_iff.mp hexec
  obtain ⟨hdenied, hview⟩ := Prod.mk.inj hview
  obtain ⟨hframes, hlength⟩ := Prod.mk.inj hview
  have hstep : step (.start gatedServer [] []) (.frame environment (.new .ping 1 [])) =
      some s := by
    rw [step]
    exact if_pos rfl
  have hping : Run step Free (.start gatedServer [] []) [.frame environment (.new .ping 1 [])] s :=
    .cons hstep trivial (.nil s)
  have hlater : Run step Free s gateOps t := (run_of_exec ht).weaken fun _ _ _ => trivial
  have htoken : gatedServer.token = some sharedToken := rfl
  have hshut := (access_gated htoken hping).1 ?_
  · obtain ⟨_, hlast, hgated⟩ := access_gated htoken (hping.append hlater)
    exact ⟨s, t, hping, hdenied, hshut.2.1, hlater, hframes, hlength, hlast, hgated⟩
  intro entry hentry
  obtain ⟨queued, wire, hhandle, _⟩ :=
    (State.start gatedServer [] []).handle_eq environment (.new .ping 1 [])
  rw [show s = _ from hhandle] at hentry
  rw [List.mem_singleton.mp hentry]
  rintro ⟨resolved, params, nonce, clientPub, hresolve, haccepts⟩
  cases hresolve
  cases haccepts.msgType_eq

end Session

end Live

end Ohmcp
