import Ohmcp.InFlight
import Ohmcp.Responses

/-! A tool call from the server's cache to the client's: which frame answers it, what becomes of
the two caches, and what the client gets out of the frame. -/

namespace Ohmcp

variable [Externals]

/-! ### The server's cache -/

/-- No entry has expired under a key, and none is evicted for it. -/
structure ResultCache.Steady (cache : ResultCache) (now : Nat) (order : List CacheKey)
    (key : CacheKey) : Prop where
  fresh : ∀ entry, cache.stored key = some entry → now - entry.2 ≤ cache.ttl
  kept : cache.stored key = none → (cache.get now key).2.evicted order key = none

omit [Externals] in
theorem ResultCache.live_of_fresh {cache : ResultCache} {now : Nat} {key : CacheKey}
    (hfresh : ∀ entry, cache.stored key = some entry → now - entry.2 ≤ cache.ttl) :
    cache.live now key = (cache.stored key).map Prod.fst := by
  cases hstored : cache.stored key with
  | none => rw [live, hstored, Option.bind_none, Option.map_none]
  | some entry => exact live_eq_some hstored (hfresh entry hstored)

section Answer

variable {moment : Moment} {registry : ToolRegistry} {cache : ResultCache}
  {delivered : Finset CacheKey} {name : String} {args : Value} {key : CacheKey}

/-- What the answer to a call of a cacheable tool says about the value under its key. -/
structure CachedAnswer (moment : Moment) (registry : ToolRegistry) (cache : ResultCache)
    (delivered : Finset CacheKey) (name : String) (args : Value) (key : CacheKey) (value : Bytes)
    (outcome : CallAnswer × ResultCache × Finset CacheKey) : Prop where
  stored : ∃ inserted, outcome.2.1.stored key = some (value, inserted)
  answer_eq : outcome.1 = if key ∈ delivered ∧ (cache.stored key).isSome then .reference key
    else .full value true
  delivered_eq : outcome.2.2 = insert key delivered
  /-- Nothing is lost. -/
  kept : ∀ other entry, cache.stored other = some entry → outcome.2.1.stored other = some entry
  others : ∀ other, other ≠ key → outcome.2.1.stored other = cache.stored other
  /-- A value the cache did not have is the tool's. -/
  produced : cache.stored key = none → ∃ result,
    registry.call moment.occasion name args = some result ∧
      value = Externals.toVec .callToolResult result

/-- While nothing expires and nothing is evicted, the cache has a value for each call of a cacheable
tool afterwards, and loses none. -/
theorem cachedAnswer_answerCall (hkey : toolKey registry name args = some key)
    (hsteady : cache.Steady moment.now moment.order key) :
    ∃ value, CachedAnswer moment registry cache delivered name args key value
      (answerCall moment registry cache delivered name args) := by
  have hlive := ResultCache.live_of_fresh hsteady.fresh
  have hcacheable : registry.isCacheable name = true := by
    by_contra hnot
    rw [toolKey, if_neg hnot] at hkey
    cases hkey
  rcases hstored : cache.stored key with _ | ⟨value, inserted⟩
  · rw [hstored, Option.map_none] at hlive
    obtain ⟨result, hcall⟩ :=
      ToolRegistry.exists_call_of_cacheable hcacheable moment.occasion args
    have hothers : ∀ other, other ≠ key →
        ((cache.get moment.now key).2.put moment.putNow moment.order key
          (Externals.toVec .callToolResult result)).stored other = cache.stored other := by
      intro other hother
      rw [ResultCache.put_stored_of_ne hother (by rw [hsteady.kept hstored]; nofun),
        ResultCache.get_stored_of_ne hother]
    rw [answerCall_of_miss hkey hlive hcall]
    refine ⟨_, ⟨_, ResultCache.put_stored_self⟩, ?_, rfl, ?_, hothers, fun _ => ⟨result, hcall, rfl⟩⟩
    · rw [if_neg (by rw [hstored]; exact fun h => Bool.false_ne_true h.2)]
    · intro other entry hentry
      have hother : other ≠ key := by
        intro heq
        rw [heq, hstored] at hentry
        cases hentry
      rw [hothers other hother, hentry]
  · rw [hstored, Option.map_some] at hlive
    have hsame : ∀ other, (cache.get moment.now key).2.stored other = cache.stored other :=
      fun other => ResultCache.get_stored_of_live hlive
    rw [answerCall_of_live hkey hlive]
    refine ⟨value, ?_⟩
    by_cases hmem : key ∈ delivered
    · rw [if_pos hmem]
      refine ⟨⟨inserted, (hsame key).trans hstored⟩, ?_, ?_, ?_, fun other _ => hsame other, ?_⟩
      · rw [if_pos ⟨hmem, by rw [hstored]; rfl⟩]
      · exact (Finset.insert_eq_of_mem hmem).symm
      · exact fun other entry hentry => (hsame other).trans hentry
      · intro hnone
        rw [hstored] at hnone
        cases hnone
    · rw [if_neg hmem]
      refine ⟨⟨inserted, (hsame key).trans hstored⟩, ?_, rfl, ?_, fun other _ => hsame other, ?_⟩
      · rw [if_neg (fun h => hmem h.1)]
      · exact fun other entry hentry => (hsame other).trans hentry
      · intro hnone
        rw [hstored] at hnone
        cases hnone

end Answer

/-! ### The answer as a shipment -/

/-- The shipment that answers a call. -/
def answerShipment (session : Session) (id : UInt64) (name : String) : CallAnswer → Shipment
  | .reference key => referenceShipment session.pipeline .callToolResult id key
  | .full body cacheable =>
      bodyShipment session.pipeline session.shm .callToolResult id body cacheable
  | .unknown => inlineShipment session.pipeline .error id
      (Externals.toVec .errorBody ⟨-32601, "unknown tool: " ++ name, none⟩)

theorem id_answerShipment (session : Session) (id : UInt64) (name : String) (answer : CallAnswer) :
    (answerShipment session id name answer).id = id := by
  cases answer <;> rfl

theorem payloadLen_answerShipment (session : Session) (id : UInt64) (name : String)
    (answer : CallAnswer) :
    (answerShipment session id name answer).frame.header.payloadLen =
      Frame.lenU32 (answerShipment session id name answer).frame.payload := by
  cases answer with
  | reference key => rfl
  | full body cacheable =>
      cases cacheable with
      | false => exact payloadLen_wrapShm
      | true => exact payloadLen_wrapShm
  | unknown => rfl

/-- Of the session, an answer changes the nonce counter and the ring only. -/
theorem answerFrame_eq (shared : Shared) (session : Session) (id : UInt64) (name : String)
    (answer : CallAnswer) :
    ∃ pipeline shm, answerFrame shared session id name answer =
        ⟨shared, { session with pipeline := pipeline, shm := shm },
          [.queue (answerShipment session id name answer).frame], .next⟩ ∧
      pipeline.cipherKey = session.pipeline.cipherKey ∧
      Sent session.pipeline.cipherKey session.shm (answerShipment session id name answer) shm := by
  cases answer with
  | reference key =>
      exact ⟨_, _, rfl, PayloadPipeline.cipherKey_wrapCacheRef key,
        sent_wrapCacheRef session.pipeline session.shm .callToolResult id key⟩
  | full body cacheable =>
      exact ⟨_, _, rfl, cipherKey_wrapShm session.pipeline session.shm .callToolResult id body,
        sent_wrapShm session.pipeline session.shm .callToolResult id body cacheable⟩
  | unknown =>
      exact ⟨_, _, rfl, PayloadPipeline.cipherKey_wrap _,
        sent_wrap session.pipeline session.shm .error id _⟩

/-! ### The call as the server comes to it -/

section Serve

variable {env : Environment} {shared : Shared} {session : Session} {frame resolved : Frame}
  {key : Option Bytes32} {request : Shipment} {payload : Bytes} {params : CallToolParams}
  {shmUp : Option ShmRing}

/-- A call that arrives as it was sent. -/
structure Arrives (session : Session) (frame : Frame) (request : Shipment) (payload : Bytes)
    (shmUp : Option ShmRing) : Prop where
  resolves : ∃ resolved, resolveRef uplinkErrors session.shmUp frame = (.ok resolved, shmUp) ∧
    request.Opens session.pipeline.cipherKey resolved
  msgType_eq : request.msgType = .callTool
  load_eq : request.load = .body payload
  authenticated_eq : session.authenticated = true
  not_cancelled : request.id ∉ session.cancelled

/-- The call reaches `performCall`, after the notification it may ask for. -/
theorem handleFrame_call (harrives : Arrives session frame request payload shmUp)
    (hparse : Externals.fromSlice .callToolParams payload = some params) :
    handleFrame env shared session frame =
      let announced := announce { session with shmUp := shmUp } request.id params
      let handled := performCall env shared announced.2 request.id params
      { handled with actions := announced.1 ++ handled.actions } := by
  obtain ⟨⟨resolved, hresolve, hopens⟩, htype, hload, hauth, hcancelled⟩ := harrives
  have hunwrap := hopens.unwrap_eq session.pipeline env.now rfl
  rw [hload, Load.unwrapped] at hunwrap
  have hresolved : resolveUplink session frame = (.ok resolved, { session with shmUp := shmUp }) := by
    rw [resolveUplink, hresolve]
  rw [handleFrame_of_ok hresolved, dispatch]
  simp only [hopens.msgType_eq, htype, hauth]
  rw [handleCallTool]
  simp only [hopens.requestId_eq, if_neg hcancelled, withParams, hunwrap, hparse]

theorem announce_silent (hwants : wantsProgress params = false) (id : UInt64) :
    announce session id params = ([], session) := by
  rw [announce, hwants]
  rfl

/-- The notification of a call that asks for progress. -/
def progressShipment (session : Session) (id : UInt64) (name : String) : Shipment :=
  inlineShipment session.pipeline .progress id
    (Externals.toVec .progressParams ⟨id, 0, some 1, some ("executing " ++ name)⟩)

theorem announce_progress (session : Session) (hwants : wantsProgress params = true) (id : UInt64) :
    ∃ pipeline, announce session id params =
        ([.queue (progressShipment session id params.name).frame],
          { session with pipeline := pipeline }) ∧
      pipeline.cipherKey = session.pipeline.cipherKey ∧
      Sent session.pipeline.cipherKey session.shm (progressShipment session id params.name)
        session.shm := by
  refine ⟨(session.pipeline.wrap .progress id (Externals.toVec .progressParams
    ⟨id, 0, some 1, some ("executing " ++ params.name)⟩)).2, ?_,
    PayloadPipeline.cipherKey_wrap _, sent_wrap session.pipeline session.shm .progress id _⟩
  rw [announce, hwants]
  rfl

theorem performCall_granted {session : Session} {id : UInt64}
    (hgranted : shared.acl.check session.agentId params.name = .ok ()) :
    performCall env shared session id params =
      let outcome := answerCall env.toMoment shared.registry shared.cache session.delivered
        params.name params.arguments
      answerFrame { shared with cache := outcome.2.1 } { session with delivered := outcome.2.2 } id
        params.name outcome.1 := by
  rw [performCall, hgranted]

/-- A notification the client's reading loop passes over. -/
structure Shipment.IsNotice (key : Option Bytes32) (notice : Shipment) : Prop where
  ready : notice.Ready key
  offset_eq : notice.offset = none
  msgType_eq : notice.msgType = .progress
  load_eq : ∃ payload, notice.load = .body payload
  payloadLen_eq : notice.frame.header.payloadLen = Frame.lenU32 notice.frame.payload
  cacheRef_eq : notice.frame.header.flags.cacheRef = false

theorem announce_eq (session : Session) (id : UInt64) (params : CallToolParams) :
    ∃ (notices : List Shipment) (pipeline : PayloadPipeline),
      announce session id params =
        ((notices.map Shipment.frame).map .queue, { session with pipeline := pipeline }) ∧
      pipeline.cipherKey = session.pipeline.cipherKey ∧
      ∀ notice ∈ notices, notice.IsNotice session.pipeline.cipherKey := by
  cases hwants : wantsProgress params with
  | false =>
      exact ⟨[], session.pipeline, announce_silent hwants id, rfl,
        fun _ hmem => absurd hmem List.not_mem_nil⟩
  | true =>
      obtain ⟨pipeline, hannounce, hkey, hsent⟩ := announce_progress session hwants id
      exact ⟨[progressShipment session id params.name], pipeline, hannounce, hkey,
        List.forall_mem_singleton.mpr ⟨hsent.ready, rfl, rfl, ⟨_, rfl⟩, rfl,
          (PayloadPipeline.wrap_flags session.pipeline .progress id _).2.1⟩⟩

variable (env shared) in
/-- A call that is granted is answered by one frame, after the notification it may ask for. -/
theorem handleFrame_granted_call (harrives : Arrives session frame request payload shmUp)
    (hparse : Externals.fromSlice .callToolParams payload = some params)
    (hgranted : shared.acl.check session.agentId params.name = .ok ()) :
    let outcome := answerCall env.toMoment shared.registry shared.cache session.delivered
      params.name params.arguments
    ∃ (notices : List Shipment) (announced : PayloadPipeline),
      let answered :=
        { session with shmUp := shmUp, delivered := outcome.2.2, pipeline := announced }
      let shipment := answerShipment answered request.id params.name outcome.1
      ∃ pipeline shm, handleFrame env shared session frame =
          ⟨{ shared with cache := outcome.2.1 },
            { answered with pipeline := pipeline, shm := shm },
            ((notices ++ [shipment]).map Shipment.frame).map .queue, .next⟩ ∧
        pipeline.cipherKey = session.pipeline.cipherKey ∧
        Sent session.pipeline.cipherKey session.shm shipment shm ∧
        ∀ notice ∈ notices, notice.IsNotice session.pipeline.cipherKey := by
  intro outcome
  obtain ⟨notices, announced, hannounce, hannounced, hnotices⟩ :=
    announce_eq { session with shmUp := shmUp } request.id params
  refine ⟨notices, announced, ?_⟩
  intro answered shipment
  obtain ⟨pipeline, shm, hanswer, hkey, hsent⟩ :=
    answerFrame_eq { shared with cache := outcome.2.1 } answered request.id params.name outcome.1
  refine ⟨pipeline, shm, ?_, hkey.trans hannounced, hannounced ▸ hsent, hnotices⟩
  have hactions : ((notices ++ [shipment]).map Shipment.frame).map Action.queue =
      (notices.map Shipment.frame).map .queue ++ [.queue shipment.frame] := by
    rw [List.map_append, List.map_append]
    rfl
  rw [handleFrame_call harrives hparse, hannounce, hactions]
  dsimp only
  rw [performCall_granted (by exact hgranted)]
  exact congrArg (fun handled : Handled => { handled with
    actions := (notices.map Shipment.frame).map Action.queue ++ handled.actions }) hanswer

end Serve

/-! ### A connection on which no call was made yet -/

omit [Externals] in
/-- What the two ends of a connection agree on before the first call. -/
structure NewConnection (client : PayloadPipeline) (session : Session) : Prop where
  sameKey : client.cipherKey = session.pipeline.cipherKey
  authenticated_eq : session.authenticated = true
  delivered_eq : session.delivered = ∅
  cancelled_eq : session.cancelled = ∅
  /-- The client has recorded nothing. -/
  cache_eq : client.cache = .new 4096 cacheTtl
  shm_eq : session.shm = none ∨ session.shm = some newRing
  shmUp_eq : session.shmUp = none ∨ session.shmUp = some newRing

omit [Externals] in
theorem stored_new (capacity ttl : Nat) (key : CacheKey) :
    (ResultCache.new capacity ttl).stored key = none := rfl

/-! ### The response as the client opens it -/

section Open

variable {key : Option Bytes32} {shipment : Shipment} {resolved : Frame}
  {pipeline : PayloadPipeline}

theorem openResponse_body (hopens : shipment.Opens key resolved) (hkey : pipeline.cipherKey = key)
    {payload : Bytes} (hload : shipment.load = .body payload)
    (htype : shipment.msgType = .callToolResult) (now : Nat) (cacheKey : Option CacheKey) :
    openResponse pipeline now cacheKey resolved =
      (.ok (payload, if shipment.cacheable then cacheKey else none), pipeline) := by
  have hunwrap := hopens.unwrap_eq pipeline now hkey
  rw [hload, Load.unwrapped] at hunwrap
  have hreference : resolved.header.flags.cacheRef = false := by
    rw [hopens.cacheRef_eq, hload]
    rfl
  rw [openResponse, hunwrap]
  simp only [hopens.msgType_eq, htype, hopens.cacheable_eq, hreference, and_true,
    if_neg (nofun : MsgType.callToolResult ≠ MsgType.error)]

theorem openResponse_reference (hopens : shipment.Opens key resolved)
    (hkey : pipeline.cipherKey = key) {referred : CacheKey}
    (hload : shipment.load = .reference referred) (htype : shipment.msgType = .callToolResult)
    (now : Nat) (cacheKey : Option CacheKey) :
    openResponse pipeline now cacheKey resolved =
      ((pipeline.cache.live now referred).elim (.error (.text "cache ref miss"))
          (fun value => .ok (value, none)),
        { pipeline with cache := (pipeline.cache.get now referred).2 }) := by
  have hunwrap := hopens.unwrap_eq pipeline now hkey
  rw [hload, Load.unwrapped] at hunwrap
  have hreference : resolved.header.flags.cacheRef = true := by
    rw [hopens.cacheRef_eq, hload]
    rfl
  rw [openResponse, hunwrap]
  cases pipeline.cache.live now referred with
  | none => rfl
  | some value =>
      simp only [Option.elim_some, hopens.msgType_eq, htype, hreference, Bool.true_eq_false,
        and_false, if_false, if_neg (nofun : MsgType.callToolResult ≠ MsgType.error)]

end Open

omit [Externals] in
theorem newConnection_plain : NewConnection .new (.new none) :=
  ⟨rfl, rfl, rfl, rfl, rfl, .inl rfl, .inl rfl⟩

end Ohmcp
