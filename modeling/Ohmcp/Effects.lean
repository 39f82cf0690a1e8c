import Ohmcp.Answering

/-! What the handling of one frame can do, whatever the frame: one case for each way a handler can
come out, with everything it changes and everything it writes. -/

namespace Ohmcp

variable [Externals]

/-- What an `Auth` frame must carry to be rejected in due form. -/
structure Rejects (shared : Shared) (frame : Frame) (params : AuthParams) : Prop where
  msgType_eq : frame.header.msgType = .auth
  parses : Externals.fromSlice .authParams frame.payload = some params
  rejected : acceptedAuth shared.token params = .ok none
  decoded : ∃ clientPub, authClientPub params = .ok clientPub

/-- What an `Auth` frame must carry to be accepted. -/
structure Accepts (shared : Shared) (frame : Frame) (params : AuthParams) (token nonce : Bytes)
    (clientPub : Option Bytes32) : Prop where
  msgType_eq : frame.header.msgType = .auth
  parses : Externals.fromSlice .authParams frame.payload = some params
  accepted : acceptedAuth shared.token params = .ok (some (token, nonce))
  decoded : authClientPub params = .ok clientPub

/-- A frame that carries a body of its own. -/
structure Plain (msgType : MsgType) (frame : Frame) : Prop where
  msgType_eq : frame.header.msgType = msgType
  cacheRef_eq : frame.header.flags.cacheRef = false

theorem plain_wrap (pipeline : PayloadPipeline) (msgType : MsgType) (id : UInt64)
    (payload : Bytes) : Plain msgType (pipeline.wrap msgType id payload).1 :=
  ⟨rfl, (PayloadPipeline.wrap_flags pipeline msgType id payload).2.1⟩

omit [Externals] in
theorem plain_new (msgType : MsgType) (id : UInt64) (payload : Bytes) :
    Plain msgType (.new msgType id payload) :=
  ⟨rfl, (by decide : FrameFlags.none.cacheRef = false)⟩

/-- The notification in front of an answer, if there is one. -/
def Notices (id : UInt64) (notices : List Frame) : Prop :=
  ∀ notice ∈ notices, notice.header.requestId = id ∧ Plain .progress notice

/-- The ways the handling of a frame can come out. -/
inductive Effect (env : Environment) (shared : Shared) (session : Session) (frame : Frame) :
    Handled → Prop where
  /-- An error is propagated, or the handler panics. -/
  | fails (pipeline : PayloadPipeline) (flow : Flow)
      (hkey : pipeline.cipherKey = session.pipeline.cipherKey) (hnext : flow ≠ .next)
      (hreturned : flow ≠ .returned) (hrejects : ∀ params, ¬ Rejects shared frame params)
      (htype : frame.header.msgType ≠ .shmSetup)
      (hclosed : frame.header.msgType = .callTool →
        ∀ params, ¬ Opens .callToolParams env.now session frame params) :
      Effect env shared session frame
        ⟨shared, { session with pipeline := pipeline }, [], flow⟩
  | rejects (params : AuthParams) (hrejects : Rejects shared frame params) :
      Effect env shared session frame
        ⟨shared, session, [.queue (.new .authResult frame.header.requestId
          (Externals.toVec .authResult (authResult false none)))], .returned⟩
  | accepts (params : AuthParams) (token nonce : Bytes) (clientPub : Option Bytes32)
      (haccepts : Accepts shared frame params token nonce clientPub) :
      Effect env shared session frame
        ⟨{ shared with acl := shared.acl.grantAll params.agentId },
          { session with
            authenticated := true
            agentId := params.agentId
            pipeline := session.pipeline.enableEncryption
              (sessionKey env.eph clientPub token nonce) env.noncePrefix env.noncePrefix_length },
          [.queue (.new .authResult frame.header.requestId (Externals.toVec .authResult
            (authResult true (if clientPub.isSome then some env.eph else none))))], .next⟩
  /-- The gate. -/
  | denies (hauth : session.authenticated = false) (htype : frame.header.msgType ≠ .auth) :
      Effect env shared session frame
        (refuse shared session frame.header.requestId (-32001) "authentication required")
  | setupFails (hauth : session.authenticated = true) (htype : frame.header.msgType = .shmSetup) :
      Effect env shared session frame
        ⟨shared, session, [.flush], .failed (.text "dup failed during shm setup")⟩
  | setup (pipeline : PayloadPipeline) (shm shmUp : Option ShmRing) (bytes : Bytes) (reply : Frame)
      (hauth : session.authenticated = true) (htype : frame.header.msgType = .shmSetup)
      (hkey : pipeline.cipherKey = session.pipeline.cipherKey)
      (hreply : Plain .shmSetupResult reply) :
      Effect env shared session frame
        ⟨shared, { session with pipeline := pipeline, shm := shm, shmUp := shmUp },
          .flush :: bytes.map .rawByte ++ [.queue reply], .next⟩
  /-- A request that only reads. -/
  | replies (pipeline : PayloadPipeline) (reply : Frame) (result : MsgType)
      (hauth : session.authenticated = true)
      (hresult : resultType frame.header.msgType = some result)
      (htype : frame.header.msgType ≠ .auth ∧ frame.header.msgType ≠ .callTool ∧
        frame.header.msgType ≠ .subscribeResource ∧ frame.header.msgType ≠ .unsubscribeResource)
      (hkey : pipeline.cipherKey = session.pipeline.cipherKey)
      (hreply : Plain result reply ∨ Plain .error reply) :
      Effect env shared session frame
        ⟨shared, { session with pipeline := pipeline }, [.queue reply], .next⟩
  | subscribes (pipeline : PayloadPipeline) (reply : Frame) (uri : String)
      (subscribed : Finset String) (hauth : session.authenticated = true)
      (hopens : Opens .subscribeResourceParams env.now session frame ⟨uri⟩)
      (hsubscribed : (frame.header.msgType = .subscribeResource ∧
          shared.registry.hasResource uri = true ∧ subscribed = insert uri session.subscribed) ∨
        (frame.header.msgType = .unsubscribeResource ∧ subscribed = session.subscribed.erase uri))
      (hkey : pipeline.cipherKey = session.pipeline.cipherKey)
      (hreply : Plain .subscribeResourceResult reply) :
      Effect env shared session frame
        ⟨shared, { session with pipeline := pipeline, subscribed := subscribed },
          [.queue reply], .next⟩
  /-- A subscription to a resource that does not exist. -/
  | refusesSubscription (pipeline : PayloadPipeline) (reply : Frame) (uri : String)
      (hauth : session.authenticated = true)
      (hopens : Opens .subscribeResourceParams env.now session frame ⟨uri⟩)
      (htype : frame.header.msgType = .subscribeResource)
      (hmissing : shared.registry.hasResource uri = false)
      (hkey : pipeline.cipherKey = session.pipeline.cipherKey)
      (hreply : Plain .error reply) :
      Effect env shared session frame
        ⟨shared, { session with pipeline := pipeline }, [.queue reply], .next⟩
  | cancels (pipeline : PayloadPipeline) (cancelled : Finset UInt64)
      (hauth : session.authenticated = true) (htype : frame.header.msgType = .cancel)
      (hkey : pipeline.cipherKey = session.pipeline.cipherKey) :
      Effect env shared session frame
        ⟨shared, { session with pipeline := pipeline, cancelled := cancelled }, [], .next⟩
  /-- A type the server does not expect. -/
  | ignores (hauth : session.authenticated = true)
      (hresult : resultType frame.header.msgType = none)
      (htype : frame.header.msgType ≠ .shmSetup) :
      Effect env shared session frame ⟨shared, session, [], .next⟩
  | callCancelled (pipeline : PayloadPipeline) (reply : Frame)
      (hauth : session.authenticated = true) (htype : frame.header.msgType = .callTool)
      (hkey : pipeline.cipherKey = session.pipeline.cipherKey)
      (hreply : Plain .error reply) (hcancelled : frame.header.requestId ∈ session.cancelled) :
      Effect env shared session frame
        ⟨shared, { session with
            cancelled := session.cancelled.erase frame.header.requestId
            pipeline := pipeline }, [.queue reply], .next⟩
  | callDenied (pipeline : PayloadPipeline) (notices : List Frame) (reply : Frame)
      (params : CallToolParams) (hauth : session.authenticated = true)
      (htype : frame.header.msgType = .callTool)
      (hopens : Opens .callToolParams env.now session frame params)
      (hdenied : shared.acl.check session.agentId params.name ≠ .ok ())
      (hkey : pipeline.cipherKey = session.pipeline.cipherKey)
      (hnotices : Notices frame.header.requestId notices) (hreply : Plain .error reply) :
      Effect env shared session frame
        ⟨shared, { session with pipeline := pipeline },
          notices.map .queue ++ [.queue reply], .next⟩
  | called (pipeline : PayloadPipeline) (shm : Option ShmRing) (notices : List Frame)
      (params : CallToolParams) (sender : Session) (hauth : session.authenticated = true)
      (htype : frame.header.msgType = .callTool)
      (hopens : Opens .callToolParams env.now session frame params)
      (hgranted : shared.acl.check session.agentId params.name = .ok ())
      (hkey : pipeline.cipherKey = session.pipeline.cipherKey)
      (hnotices : Notices frame.header.requestId notices)
      (hsender : sender.pipeline.cipherKey = session.pipeline.cipherKey)
      (hshm : sender.shm = session.shm) (hactive : frame.header.requestId ∉ session.cancelled) :
      Effect env shared session frame
        ⟨{ shared with cache := (answerCall env.toMoment shared.registry shared.cache
              session.delivered params.name params.arguments).2.1 },
          { session with
            pipeline := pipeline
            shm := shm
            delivered := (answerCall env.toMoment shared.registry shared.cache
              session.delivered params.name params.arguments).2.2 },
          notices.map .queue ++ [.queue (answerShipment sender frame.header.requestId params.name
            (answerCall env.toMoment shared.registry shared.cache session.delivered params.name
              params.arguments).1).frame], .next⟩

section Handlers

variable {env : Environment} {shared : Shared} {session : Session} {frame : Frame}

omit [Externals] in
theorem Flow.failed_ne (failure : Failure) :
    Flow.failed failure ≠ .next ∧ Flow.failed failure ≠ .returned :=
  ⟨fun h => Flow.noConfusion h, fun h => Flow.noConfusion h⟩

/-- A request whose body does not open ends the session; else the body is handed on. -/
theorem withParams_cases (shared : Shared) (session : Session) (frame : Frame) {schema : Schema}
    (now : Nat) (body : Session → schema.Body → Handled) :
    (∃ flow, flow ≠ .next ∧ flow ≠ .returned ∧
      (∀ params, ¬ Opens schema now session frame params) ∧
      withParams shared session schema now frame body =
        ⟨shared, { session with pipeline := (session.pipeline.unwrap now frame).2 }, [], flow⟩) ∨
    ∃ params, Opens schema now session frame params ∧
      withParams shared session schema now frame body =
        body { session with pipeline := (session.pipeline.unwrap now frame).2 } params := by
  rcases hunwrap : session.pipeline.unwrap now frame with ⟨e | data, pipeline⟩
  · refine .inl ⟨.failed (.text e), (Flow.failed_ne _).1, (Flow.failed_ne _).2, ?_, ?_⟩
    · rintro params ⟨data, hdata, _⟩
      rw [hunwrap] at hdata
      cases hdata
    · rw [withParams, hunwrap]
      rfl
  · rcases hparams : Externals.fromSlice schema data with _ | params
    · refine .inl ⟨.failed .json, (Flow.failed_ne _).1, (Flow.failed_ne _).2, ?_, ?_⟩
      · rintro params ⟨data', hdata, hsome⟩
        rw [hunwrap] at hdata
        cases hdata
        rw [hparams] at hsome
        cases hsome
      · rw [withParams, hunwrap]
        simp only [hparams]
        rfl
    · have hopens : Opens schema now session frame params := ⟨data, by rw [hunwrap], hparams⟩
      refine .inr ⟨params, hopens, ?_⟩
      rw [withParams_of_opens hopens, hunwrap]

theorem not_rejects (htype : frame.header.msgType ≠ .auth) (params : AuthParams) :
    ¬ Rejects shared frame params := fun h => htype h.msgType_eq

theorem effect_auth (htype : frame.header.msgType = .auth) :
    Effect env shared session frame (handleAuth env shared session frame) := by
  have hsetup : frame.header.msgType ≠ .shmSetup := by
    rw [htype]
    decide
  have hclosed : frame.header.msgType = .callTool →
      ∀ params, ¬ Opens .callToolParams env.now session frame params := by
    rw [htype]
    exact fun hcall => absurd hcall (by decide)
  rcases hparams : Externals.fromSlice .authParams frame.payload with _ | params
  · rw [handleAuth, hparams]
    refine .fails session.pipeline (.failed .json) rfl (by decide) (by decide) ?_ hsetup hclosed
    intro params hrejects
    have hsome := hrejects.parses
    rw [hparams] at hsome
    cases hsome
  · have hother : ∀ {params'}, Rejects shared frame params' → params' = params := by
      intro params' hrejects
      have hsome := hrejects.parses
      rw [hparams] at hsome
      exact (Option.some.inj hsome).symm
    rcases haccepted : acceptedAuth shared.token params with e | accepted
    · rw [handleAuth, hparams]
      simp only [haccepted]
      refine .fails session.pipeline .panicked rfl (by decide) (by decide) ?_ hsetup hclosed
      intro params' hrejects
      have hok := hrejects.rejected
      rw [hother hrejects, haccepted] at hok
      cases hok
    · rcases hpub : authClientPub params with e | clientPub
      · rw [handleAuth, hparams]
        simp only [haccepted, hpub]
        refine .fails session.pipeline .panicked rfl (by decide) (by decide) ?_ hsetup hclosed
        intro params' hrejects
        obtain ⟨_, hok⟩ := hrejects.decoded
        rw [hother hrejects, hpub] at hok
        cases hok
      · rw [handleAuth, hparams]
        simp only [haccepted, hpub]
        rcases accepted with _ | ⟨token, nonce⟩
        · exact .rejects params ⟨htype, hparams, haccepted, clientPub, hpub⟩
        · exact .accepts params token nonce clientPub ⟨htype, hparams, haccepted, hpub⟩

theorem effect_shmSetup (hauth : session.authenticated = true)
    (htype : frame.header.msgType = .shmSetup) :
    Effect env shared session frame (handleShmSetup env shared session frame) := by
  rw [handleShmSetup]
  by_cases hdup : env.dupMade = true
  · rw [if_pos hdup]
    dsimp only
    by_cases hok : ((sendFds env).2 && env.ringMade && env.upRingMade) = true
    · simp only [if_pos hok]
      exact .setup _ _ _ _ _ hauth htype (PayloadPipeline.cipherKey_wrap _) (plain_wrap ..)
    · simp only [if_neg hok]
      exact .setup _ session.shm session.shmUp _ _ hauth htype (PayloadPipeline.cipherKey_wrap _)
        (plain_wrap ..)
  · rw [if_neg hdup]
    exact .setupFails hauth htype

/-- A request that is answered from its body or ends the session. -/
theorem effect_withParams {schema : Schema} {body : Session → schema.Body → Handled}
    (htype : frame.header.msgType ≠ .auth) (hsetup : frame.header.msgType ≠ .shmSetup)
    (hclosed : (∀ params, ¬ Opens schema env.now session frame params) →
      frame.header.msgType = .callTool →
        ∀ params, ¬ Opens .callToolParams env.now session frame params)
    (hbody : ∀ params, Opens schema env.now session frame params →
      Effect env shared session frame
        (body { session with pipeline := (session.pipeline.unwrap env.now frame).2 } params)) :
    Effect env shared session frame (withParams shared session schema env.now frame body) := by
  rcases withParams_cases shared session frame env.now body with
    ⟨flow, hnext, hreturned, hnone, heq⟩ | ⟨params, hopens, heq⟩
  · rw [heq]
    exact .fails _ flow (PayloadPipeline.cipherKey_unwrap _ _ _) hnext hreturned
      (not_rejects htype) hsetup (hclosed hnone)
  · rw [heq]
    exact hbody params hopens

/-- One frame answers a request that only reads. -/
theorem effect_answer (session : Session) (pipeline : PayloadPipeline) {result : MsgType} (payload : Bytes)
    (msgType : MsgType) (hauth : session.authenticated = true)
    (hkey : pipeline.cipherKey = session.pipeline.cipherKey)
    (hresult : resultType frame.header.msgType = some result)
    (htype : frame.header.msgType ≠ .auth ∧ frame.header.msgType ≠ .callTool ∧
      frame.header.msgType ≠ .subscribeResource ∧ frame.header.msgType ≠ .unsubscribeResource)
    (hmsgType : msgType = result ∨ msgType = .error) :
    Effect env shared session frame
      (answer shared { session with pipeline := pipeline } frame.header.requestId msgType payload) := by
  have hplain := plain_wrap pipeline msgType frame.header.requestId payload
  refine .replies _ _ result hauth hresult htype
    ((PayloadPipeline.cipherKey_wrap payload).trans hkey) ?_
  rcases hmsgType with rfl | rfl
  · exact .inl hplain
  · exact .inr hplain

theorem effect_readResource (hauth : session.authenticated = true)
    (htype : frame.header.msgType = .readResource) :
    Effect env shared session frame (handleReadResource env shared session frame) := by
  have hresult : resultType frame.header.msgType = some .readResourceResult := by
    rw [htype]
    rfl
  refine effect_withParams (by rw [htype]; decide) (by rw [htype]; decide)
    (fun _ => by rw [htype]; exact fun hcall => absurd hcall (by decide)) fun params _ => ?_
  have hkey := PayloadPipeline.cipherKey_unwrap session.pipeline env.now frame
  cases shared.registry.readResource params.uri with
  | some contents =>
      exact effect_answer session _ _ _ hauth hkey hresult (by rw [htype]; decide) (.inl rfl)
  | none => exact effect_answer session _ _ _ hauth hkey hresult (by rw [htype]; decide) (.inr rfl)

theorem effect_getPrompt (hauth : session.authenticated = true)
    (htype : frame.header.msgType = .getPrompt) :
    Effect env shared session frame (handleGetPrompt env shared session frame) := by
  have hresult : resultType frame.header.msgType = some .getPromptResult := by
    rw [htype]
    rfl
  refine effect_withParams (by rw [htype]; decide) (by rw [htype]; decide)
    (fun _ => by rw [htype]; exact fun hcall => absurd hcall (by decide)) fun params _ => ?_
  have hkey := PayloadPipeline.cipherKey_unwrap session.pipeline env.now frame
  cases shared.registry.getPrompt env.occasion params.name params.arguments with
  | some contents =>
      exact effect_answer session _ _ _ hauth hkey hresult (by rw [htype]; decide) (.inl rfl)
  | none => exact effect_answer session _ _ _ hauth hkey hresult (by rw [htype]; decide) (.inr rfl)

theorem effect_subscribe (hauth : session.authenticated = true)
    (htype : frame.header.msgType = .subscribeResource ∨
      frame.header.msgType = .unsubscribeResource) :
    Effect env shared session frame (handleSubscribe env shared session frame) := by
  have hne : frame.header.msgType ≠ .auth ∧ frame.header.msgType ≠ .shmSetup ∧
      frame.header.msgType ≠ .callTool := by
    rcases htype with htype | htype
    · rw [htype]
      decide
    · rw [htype]
      decide
  have hkey := PayloadPipeline.cipherKey_unwrap session.pipeline env.now frame
  unfold handleSubscribe
  dsimp only
  refine effect_withParams hne.1 hne.2.1 (fun _ h => absurd h hne.2.2) fun params hopens => ?_
  by_cases hmissing : frame.header.msgType = .subscribeResource ∧
      shared.registry.hasResource params.uri = false
  · rw [if_pos hmissing]
    exact .refusesSubscription _ _ params.uri hauth hopens hmissing.1 hmissing.2
      ((PayloadPipeline.cipherKey_wrap _).trans hkey) (plain_wrap ..)
  rw [if_neg hmissing]
  have hwrapped : ((session.pipeline.unwrap env.now frame).2.wrap .subscribeResourceResult
      frame.header.requestId (utf8 "\x7b\x7d")).2.cipherKey = session.pipeline.cipherKey :=
    (PayloadPipeline.cipherKey_wrap _).trans hkey
  have hplain := plain_wrap (session.pipeline.unwrap env.now frame).2 .subscribeResourceResult
    frame.header.requestId (utf8 "\x7b\x7d")
  refine .subscribes _ _ params.uri _ hauth hopens ?_ hwrapped hplain
  rcases htype with htype | htype
  · refine .inl ⟨htype, ?_, if_pos htype⟩
    cases hhas : shared.registry.hasResource params.uri with
    | true => rfl
    | false => exact absurd ⟨htype, hhas⟩ hmissing
  · exact .inr ⟨htype, if_neg (by rw [htype]; decide)⟩

theorem effect_cancel (hauth : session.authenticated = true)
    (htype : frame.header.msgType = .cancel) :
    Effect env shared session frame (handleCancel env shared session frame) := by
  have hkey := PayloadPipeline.cipherKey_unwrap session.pipeline env.now frame
  rcases hunwrap : session.pipeline.unwrap env.now frame with ⟨e | data, pipeline⟩
  · rw [hunwrap] at hkey
    rw [handleCancel, hunwrap]
    exact .fails pipeline _ hkey (Flow.failed_ne _).1 (Flow.failed_ne _).2
      (not_rejects (by rw [htype]; decide)) (by rw [htype]; decide)
      (by rw [htype]; exact fun hcall => absurd hcall (by decide))
  · rw [hunwrap] at hkey
    rw [handleCancel, hunwrap]
    dsimp only
    rcases Externals.fromSlice .cancelParams data with _ | params
    · exact .cancels pipeline session.cancelled hauth htype hkey
    · exact .cancels pipeline _ hauth htype hkey

theorem effect_callTool (hauth : session.authenticated = true)
    (htype : frame.header.msgType = .callTool) :
    Effect env shared session frame (handleCallTool env shared session frame) := by
  unfold handleCallTool
  dsimp only
  by_cases hcancelled : frame.header.requestId ∈ session.cancelled
  · rw [if_pos hcancelled]
    exact .callCancelled _ _ hauth htype (PayloadPipeline.cipherKey_wrap _) (plain_wrap ..) hcancelled
  rw [if_neg hcancelled]
  refine effect_withParams (by rw [htype]; decide) (by rw [htype]; decide) (fun h _ => h)
    fun params hopens => ?_
  have hunwrap := PayloadPipeline.cipherKey_unwrap session.pipeline env.now frame
  obtain ⟨notices, pipeline, hannounce, hnotices, hpipeline⟩ : ∃ notices pipeline,
      announce { session with pipeline := (session.pipeline.unwrap env.now frame).2 }
          frame.header.requestId params =
        (notices.map .queue, { session with pipeline := pipeline }) ∧
      Notices frame.header.requestId notices ∧
      pipeline.cipherKey = session.pipeline.cipherKey := by
    cases hwants : wantsProgress params with
    | false =>
        exact ⟨[], _, announce_silent hwants _, fun _ h => absurd h List.not_mem_nil, hunwrap⟩
    | true =>
        obtain ⟨pipeline, hannounce, hkey, _⟩ := announce_progress
          { session with pipeline := (session.pipeline.unwrap env.now frame).2 } hwants
          frame.header.requestId
        refine ⟨[_], pipeline, hannounce, ?_, hkey.trans hunwrap⟩
        intro notice hnotice
        rw [List.mem_singleton.mp hnotice]
        exact ⟨rfl, plain_wrap ..⟩
  rw [hannounce]
  dsimp only
  rcases hgranted : shared.acl.check session.agentId params.name with e | ⟨⟩
  · rw [performCall]
    simp only [hgranted]
    refine .callDenied _ notices _ params hauth htype hopens (by rw [hgranted]; intro h; cases h)
      ((PayloadPipeline.cipherKey_wrap _).trans hpipeline) hnotices (plain_wrap ..)
  · rw [performCall_granted (by exact hgranted)]
    obtain ⟨after, shm, hanswer, hkey, _⟩ := answerFrame_eq
      { shared with cache := (answerCall env.toMoment shared.registry shared.cache
        session.delivered params.name params.arguments).2.1 }
      { session with
        pipeline := pipeline
        delivered := (answerCall env.toMoment shared.registry shared.cache session.delivered
          params.name params.arguments).2.2 } frame.header.requestId params.name
      (answerCall env.toMoment shared.registry shared.cache session.delivered params.name
        params.arguments).1
    dsimp only
    rw [hanswer]
    exact .called after shm notices params _ hauth htype hopens hgranted
      (hkey.trans hpipeline) hnotices hpipeline rfl hcancelled

/-- The gate. -/
theorem dispatch_of_shut (hauth : session.authenticated = false)
    (htype : frame.header.msgType ≠ .auth) :
    dispatch env shared session frame =
      refuse shared session frame.header.requestId (-32001) "authentication required" := by
  cases hmsgType : frame.header.msgType with
  | auth => exact absurd hmsgType htype
  | _ => simp only [dispatch, hmsgType, hauth]

/-- **Effects.** One case for each way the handling of a frame can come out. -/
theorem effect_dispatch (env : Environment) (shared : Shared) (session : Session) (frame : Frame) :
    Effect env shared session frame (dispatch env shared session frame) := by
  have hplain : ∀ {msgType result : MsgType} (payload : Bytes), frame.header.msgType = msgType →
      session.authenticated = true → resultType msgType = some result →
      (msgType ≠ .auth ∧ msgType ≠ .callTool ∧ msgType ≠ .subscribeResource ∧
        msgType ≠ .unsubscribeResource) →
      Effect env shared session frame
        (answer shared session frame.header.requestId result payload) := by
    intro msgType result payload htype hauth hresult hne
    subst htype
    exact effect_answer session session.pipeline payload result hauth rfl hresult hne (.inl rfl)
  by_cases hauthType : frame.header.msgType = .auth
  · simp only [dispatch, hauthType]
    exact effect_auth hauthType
  cases hauth : session.authenticated with
  | false =>
      rw [dispatch_of_shut hauth hauthType]
      exact .denies hauth hauthType
  | true =>
      cases htype : frame.header.msgType with
      | auth => exact absurd htype hauthType
      | shmSetup =>
          simp only [dispatch, htype, hauth]
          exact effect_shmSetup hauth htype
      | readResource =>
          simp only [dispatch, htype, hauth]
          exact effect_readResource hauth htype
      | getPrompt =>
          simp only [dispatch, htype, hauth]
          exact effect_getPrompt hauth htype
      | subscribeResource =>
          simp only [dispatch, htype, hauth]
          exact effect_subscribe hauth (.inl htype)
      | unsubscribeResource =>
          simp only [dispatch, htype, hauth]
          exact effect_subscribe hauth (.inr htype)
      | cancel =>
          simp only [dispatch, htype, hauth]
          exact effect_cancel hauth htype
      | callTool =>
          simp only [dispatch, htype, hauth]
          exact effect_callTool hauth htype
      | initializeRequest =>
          simp only [dispatch, htype, hauth]
          exact hplain _ htype hauth rfl (by decide)
      | listTools =>
          simp only [dispatch, htype, hauth]
          exact hplain _ htype hauth rfl (by decide)
      | listResources =>
          simp only [dispatch, htype, hauth]
          exact hplain _ htype hauth rfl (by decide)
      | listPrompts =>
          simp only [dispatch, htype, hauth]
          exact hplain _ htype hauth rfl (by decide)
      | ping =>
          simp only [dispatch, htype, hauth]
          exact hplain _ htype hauth rfl (by decide)
      | _ =>
          simp only [dispatch, htype, hauth]
          exact .ignores hauth (by rw [htype]; rfl) (by rw [htype]; decide)

/-- A frame whose uplink reference does not resolve ends the session; any other is dispatched. -/
theorem handleFrame_dispatch (env : Environment) (shared : Shared) (session : Session)
    (frame : Frame) :
    (∃ shmUp e, (resolveUplink session frame).1 = .error e ∧
      handleFrame env shared session frame =
        ⟨shared, { session with shmUp := shmUp }, [], .failed (.text e)⟩) ∨
    ∃ shmUp resolved,
      resolveUplink session frame = (.ok resolved, { session with shmUp := shmUp }) ∧
      handleFrame env shared session frame =
        dispatch env shared { session with shmUp := shmUp } resolved := by
  rcases hresolve : resolveUplink session frame with ⟨e | resolved, after⟩
  · have hafter : after = { session with shmUp := after.shmUp } := by
      rw [resolveUplink] at hresolve
      rw [← (Prod.mk.inj hresolve).2]
    refine .inl ⟨after.shmUp, e, rfl, ?_⟩
    rw [handleFrame, hresolve]
    change stop shared after _ = _
    rw [hafter]
    rfl
  · obtain ⟨_, _, hafter⟩ := resolveUplink_ok hresolve
    refine .inr ⟨after.shmUp, resolved, by rw [← hafter], ?_⟩
    rw [handleFrame_of_ok hresolve, ← hafter]

/-- What the handling of a frame can come to. -/
theorem handleFrame_cases (env : Environment) (shared : Shared) (session : Session)
    (frame : Frame) :
    (∃ shmUp e, (resolveUplink session frame).1 = .error e ∧
      handleFrame env shared session frame =
        ⟨shared, { session with shmUp := shmUp }, [], .failed (.text e)⟩) ∨
    ∃ shmUp resolved,
      resolveUplink session frame = (.ok resolved, { session with shmUp := shmUp }) ∧
      Effect env shared { session with shmUp := shmUp } resolved
        (handleFrame env shared session frame) := by
  rcases handleFrame_dispatch env shared session frame with
    herror | ⟨shmUp, resolved, hresolved, hhandled⟩
  · exact .inl herror
  · refine .inr ⟨shmUp, resolved, hresolved, ?_⟩
    rw [hhandled]
    exact effect_dispatch env shared { session with shmUp := shmUp } resolved

/-! ### What is queued -/

/-- The types a session answers with, but for the results of tools. -/
def replyTypes : List MsgType :=
  [.error, .progress, .authResult, .shmSetupResult, .initializeResult, .listToolsResult,
    .listResourcesResult, .readResourceResult, .listPromptsResult, .getPromptResult, .pong,
    .subscribeResourceResult]

omit [Externals] in
theorem mem_replyTypes_of_resultType {msgType result : MsgType}
    (hresult : resultType msgType = some result) (htype : msgType ≠ .callTool) :
    result ∈ replyTypes := by
  cases msgType with
  | callTool => exact absurd rfl htype
  | _ => cases hresult <;> decide

omit [Externals] in
@[simp] theorem Conn.queued_append (actions actions' : List Action) :
    Conn.queued (actions ++ actions') = Conn.queued actions ++ Conn.queued actions' :=
  List.filterMap_append

omit [Externals] in
@[simp] theorem Conn.queued_map_rawByte (bytes : Bytes) :
    Conn.queued (bytes.map Action.rawByte) = [] := by
  induction bytes with
  | nil => rfl
  | cons byte bytes ih => exact ih

theorem msgType_answerShipment (session : Session) (id : UInt64) (name : String)
    (answer : CallAnswer) :
    (answerShipment session id name answer).frame.header.msgType = .callToolResult ∨
      (answerShipment session id name answer).frame.header.msgType = .error := by
  cases answer with
  | reference key => exact .inl rfl
  | full body cacheable =>
      have htype := (wrapMaybeShm_header id session.pipeline session.shm body).2
      cases cacheable with
      | false => exact .inl htype
      | true => exact .inl htype
  | unknown => exact .inr rfl

/-- A call that was not cancelled and that the access list grants. -/
def Granted (env : Environment) (shared : Shared) (session : Session) (frame : Frame) : Prop :=
  frame.header.msgType = .callTool ∧ session.authenticated = true ∧
    frame.header.requestId ∉ session.cancelled ∧
    ∃ params, Opens .callToolParams env.now session frame params ∧
      shared.acl.check session.agentId params.name = .ok ()

/-- Every frame queued is one of the plain replies, or it answers a call that is granted. -/
theorem Effect.queued_cases {handled : Handled}
    (heffect : Effect env shared session frame handled) {reply : Frame}
    (hreply : reply ∈ Conn.queued handled.actions) :
    (∃ msgType ∈ replyTypes, Plain msgType reply) ∨
      Granted env shared session frame ∧
        (reply.header.msgType = .callToolResult ∨ reply.header.msgType = .error) := by
  have hone : ∀ {msgType : MsgType} {only : Frame}, msgType ∈ replyTypes → Plain msgType only →
      reply ∈ [only] → ∃ msgType ∈ replyTypes, Plain msgType reply := by
    intro msgType only hmem hplain honly
    rw [List.mem_singleton.mp honly]
    exact ⟨msgType, hmem, hplain⟩
  have hnotice : ∀ {notices : List Frame}, Notices frame.header.requestId notices →
      reply ∈ notices → ∃ msgType ∈ replyTypes, Plain msgType reply :=
    fun hnotices hmem => ⟨.progress, by decide, (hnotices reply hmem).2⟩
  cases heffect with
  | fails pipeline flow => exact absurd hreply List.not_mem_nil
  | rejects params hrejects => exact .inl (hone (by decide) (plain_new .authResult _ _) hreply)
  | accepts params token nonce clientPub haccepts =>
      exact .inl (hone (by decide) (plain_new .authResult _ _) hreply)
  | denies hauth htype =>
      exact .inl (hone (by decide) (plain_wrap session.pipeline .error frame.header.requestId _) hreply)
  | setupFails hauth htype => exact absurd hreply List.not_mem_nil
  | setup pipeline shm shmUp bytes only hauth htype hkey honly =>
      rw [List.cons_append, ← List.singleton_append, Conn.queued_append, Conn.queued_append,
        Conn.queued_map_rawByte] at hreply
      exact .inl (hone (by decide) honly hreply)
  | replies pipeline only result hauth hresult htype hkey honly =>
      rcases honly with honly | honly
      · exact .inl (hone (mem_replyTypes_of_resultType hresult htype.2.1) honly hreply)
      · exact .inl (hone (by decide) honly hreply)
  | subscribes pipeline only uri subscribed hauth hopens hsubscribed hkey honly =>
      exact .inl (hone (by decide) honly hreply)
  | refusesSubscription pipeline only uri hauth hopens htype hmissing hkey honly =>
      exact .inl (hone (by decide) honly hreply)
  | cancels => exact absurd hreply List.not_mem_nil
  | ignores => exact absurd hreply List.not_mem_nil
  | callCancelled pipeline only hauth htype hkey honly =>
      exact .inl (hone (by decide) honly hreply)
  | callDenied pipeline notices only params hauth htype hopens hdenied hkey hnotices honly =>
      rw [Conn.queued_append, Conn.queued_map_queue] at hreply
      rcases List.mem_append.mp hreply with hmem | hmem
      · exact .inl (hnotice hnotices hmem)
      · exact .inl (hone (by decide) honly hmem)
  | called pipeline shm notices params sender hauth htype hopens hgranted hkey hnotices _ _ hactive =>
      rw [Conn.queued_append, Conn.queued_map_queue] at hreply
      rcases List.mem_append.mp hreply with hmem | hmem
      · exact .inl (hnotice hnotices hmem)
      · refine .inr ⟨⟨htype, hauth, hactive, params, hopens, hgranted⟩, ?_⟩
        rw [List.mem_singleton.mp hmem]
        exact msgType_answerShipment sender _ _ _

/-- Only a call that is granted reaches the cache. -/
theorem Effect.cache_eq {handled : Handled} (heffect : Effect env shared session frame handled)
    (hdenied : ¬ Granted env shared session frame) : handled.shared.cache = shared.cache := by
  cases heffect with
  | called pipeline shm notices params sender hauth htype hopens hgranted _ _ _ _ hactive =>
      exact absurd ⟨htype, hauth, hactive, params, hopens, hgranted⟩ hdenied
  | _ => rfl

/-- The token is never set anew. -/
theorem token_handleFrame (env : Environment) (shared : Shared) (session : Session)
    (frame : Frame) : (handleFrame env shared session frame).shared.token = shared.token := by
  rcases handleFrame_cases env shared session frame with
    ⟨shmUp, e, _, hhandled⟩ | ⟨shmUp, resolved, _, heffect⟩
  · rw [hhandled]
  · generalize handleFrame env shared session frame = handled at heffect
    cases heffect <;> rfl

end Handlers

end Ohmcp
