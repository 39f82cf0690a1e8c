import Ohmcp.ServerCache

/-! Tool calls one after another on one connection, of both kinds, through both rings and both caches:
what the client returns is what the tool produced, as long as the first call of a key is one the client
records. -/

open Transition

namespace Ohmcp

variable [Externals]

namespace Sequential

/-! ### The two ends -/

/-- A call, and all that its handling depends on at either end. -/
structure Call where
  name : String
  args : Value
  /-- Made by `call_tool_with_progress`. -/
  progress : Bool
  env : Environment
  moment : Moment

namespace Call

def payload (call : Call) : Bytes :=
  if call.progress then callToolWithProgressPayload call.name call.args
  else callToolPayload call.name call.args

/-- The key the client records the result under. -/
def cacheKey (call : Call) : Option CacheKey :=
  if call.progress then none else callToolKey call.name call.args

omit [Externals] in
def callbacks (call : Call) (id : UInt64) : Callbacks where
  progress := if call.progress then {id} else ∅
  resourceUpdated := false
  resourceListChanged := false

end Call

/-- A call that is over. -/
structure Outcome where
  call : Call
  /-- What the server answered. -/
  frames : List Frame
  /-- What the server's cache held under the key of the call when it answered. -/
  held : Option Bytes
  result : Except RequestError Bytes

structure State where
  shared : Shared
  session : Session
  /-- Whether the server still serves the connection. -/
  flow : Flow
  client : PayloadPipeline
  nextId : UInt64
  outcomes : List Outcome

omit [Externals] in
def start (shared : Shared) (session : Session) (client : PayloadPipeline) (nextId : UInt64) : State :=
  ⟨shared, session, .next, client, nextId, []⟩

omit [Externals] in
/-- A frame as the decoder at the other end hands it on. -/
def received (frame : Frame) : Option Frame :=
  match (Frame.decode frame.encode).1 with
  | .ok (some frame) => some frame
  | _ => none

/-- The reading loop of a call, over the frames that arrive. -/
def recvResponse (callbacks : Callbacks) (now : Nat) (id : UInt64) (pipeline : PayloadPipeline)
    (shm : Option ShmRing) : List Frame → Except RequestError Frame × PayloadPipeline × Option ShmRing
  | [] => (.error (.text "connection closed"), pipeline, shm)
  | frame :: frames =>
      match received frame with
      | none => (.error (.text "connection closed"), pipeline, shm)
      | some frame =>
          match resolveShm shm frame with
          | (.error e, shm) => (.error (.text e), pipeline, shm)
          | (.ok frame, shm) =>
              match route callbacks pipeline now frame with
              | (.notification _, pipeline) => recvResponse callbacks now id pipeline shm frames
              | (.response frame, pipeline) =>
                  if frame.header.requestId = id then (.ok frame, pipeline, shm)
                  else recvResponse callbacks now id pipeline shm frames

/-- The request of a call, as it leaves. -/
def request (s : State) (call : Call) : Frame × PayloadPipeline × Option ShmRing :=
  requestFrame s.client s.session.shmUp .callTool s.nextId call.payload

/-- What the server makes of the request. -/
def serve (s : State) (call : Call) (frame : Frame) : Handled :=
  handleFrame call.env s.shared { s.session with shmUp := (request s call).2.2 } frame

/-- The response, and the state of the client after it. -/
def finishResponse (call : Call) :
    Except RequestError Frame × PayloadPipeline × Option ShmRing →
      Except RequestError Bytes × PayloadPipeline × Option ShmRing
  | (.error e, client, shm) => (.error e, client, shm)
  | (.ok frame, client, shm) =>
      let (result, client) := finishRequest client call.moment call.cacheKey frame
      (result, client, shm)

/-- What the client makes of the answer. -/
def finish (s : State) (call : Call) (client : PayloadPipeline) (handled : Handled) : State :=
  let frames := Conn.queued handled.actions
  let (result, client, shm) := finishResponse call
    (recvResponse (call.callbacks s.nextId) call.moment.now s.nextId client handled.session.shm
      frames)
  let held := (toolKey s.shared.registry call.name call.args).bind fun key =>
    (handled.shared.cache.stored key).map Prod.fst
  { shared := handled.shared
    session := { handled.session with shm := shm }
    flow := handled.flow
    client := client
    nextId := s.nextId + 1
    outcomes := s.outcomes ++ [⟨call, frames, held, result⟩] }

/-- A call nobody serves. -/
def lost (s : State) (call : Call) : State where
  shared := s.shared
  session := { s.session with shmUp := (request s call).2.2 }
  flow := if s.flow = .next then .failed (.text "frame not read") else s.flow
  client := (request s call).2.1
  nextId := s.nextId + 1
  outcomes := s.outcomes ++ [⟨call, [], none, .error (.text "connection closed")⟩]

/-- One call, from the request to its result. -/
def exchange (s : State) (call : Call) : State :=
  if s.flow = .next then
    match received (request s call).1 with
    | none => lost s call
    | some frame => finish s call (request s call).2.1 (serve s call frame)
  else lost s call

def step (s : State) (call : Call) : Option State := some (exchange s call)

/-! ### What the client makes of an answer -/

omit [Externals] in
theorem received_of_fits {frame : Frame}
    (hlen : frame.header.payloadLen = Frame.lenU32 frame.payload)
    (hfits : frame.payload.length ≤ maxFrameLen) : received frame = some frame := by
  have hwf : frame.WellFormed := ⟨hlen, hfits⟩
  unfold received
  rw [Frame.decode_encode hwf]

section Client

variable {key : Option Bytes32} {client : PayloadPipeline} {callbacks : Callbacks} {now : Nat}
  {id : UInt64} {shm : Option ShmRing}

theorem route_response {frame : Frame}
    (htype : frame.header.msgType = .callToolResult ∨ frame.header.msgType = .error) :
    route callbacks client now frame = (.response frame, client) := by
  rw [route]
  rcases htype with htype | htype
  · rw [htype]
  · rw [htype]

theorem recvResponse_cons {frame resolved : Frame} {frames : List Frame} {shm' : Option ShmRing}
    (hreceived : received frame = some frame)
    (hresolve : resolveRef downlinkErrors shm frame = (.ok resolved, shm')) :
    recvResponse callbacks now id client shm (frame :: frames) =
      match route callbacks client now resolved with
      | (.notification _, client) => recvResponse callbacks now id client shm' frames
      | (.response frame, client) =>
          if frame.header.requestId = id then (.ok frame, client, shm')
          else recvResponse callbacks now id client shm' frames := by
  change (match received frame with
    | none => _
    | some frame => match resolveShm shm frame with
      | (.error e, shm) => _
      | (.ok frame, shm) => _) = _
  rw [hreceived]
  dsimp only
  rw [resolveShm, hresolve]

variable (callbacks now) in
/-- A progress notification leaves the pipeline as it is. -/
theorem route_notice {notice : Shipment} {frame : Frame} (hnotice : notice.IsNotice key)
    (hopens : notice.Opens key frame) (hkey : client.cipherKey = key) :
    ∃ called, route callbacks client now frame = (.notification called, client) := by
  obtain ⟨payload, hload⟩ := hnotice.load_eq
  have hunwrap := hopens.unwrap_eq client now hkey
  rw [hload, Load.unwrapped] at hunwrap
  rw [route, hopens.msgType_eq, hnotice.msgType_eq]
  simp only [notificationBody, hunwrap]
  exact ⟨_, rfl⟩

theorem recvResponse_notices (hx : Externals.Lossless) {notices : List Shipment}
    (hnotices : ∀ notice ∈ notices, notice.IsNotice key)
    (hfits : ∀ notice ∈ notices, notice.frame.payload.length ≤ maxFrameLen)
    (hkey : client.cipherKey = key) (frames : List Frame) :
    recvResponse callbacks now id client shm (notices.map Shipment.frame ++ frames) =
      recvResponse callbacks now id client shm frames := by
  induction notices with
  | nil => rfl
  | cons notice notices ih =>
      obtain ⟨hnotice, hlater⟩ := List.forall_mem_cons.mp hnotices
      obtain ⟨hfit, hfitLater⟩ := List.forall_mem_cons.mp hfits
      obtain ⟨hresolve, hopens⟩ := hnotice.ready.opens_inline hx hnotice.offset_eq downlinkErrors shm
      obtain ⟨called, hroute⟩ :=
        route_notice callbacks now hnotice hopens hkey
      have hreceived : received notice.frame = some notice.frame :=
        received_of_fits hnotice.payloadLen_eq hfit
      rw [List.map_cons, List.cons_append, recvResponse_cons hreceived hresolve, hroute]
      exact ih hlater hfitLater

/-- The frame with the answer is the response. -/
theorem recvResponse_answer (hx : Externals.Lossless) {shipment : Shipment} {shm' : Option ShmRing}
    (hidle : Idle shm) (hsent : Sent key shm shipment shm') (hid : shipment.id = id)
    (htype : shipment.msgType = .callToolResult ∨ shipment.msgType = .error)
    (hlen : shipment.frame.header.payloadLen = Frame.lenU32 shipment.frame.payload)
    (hfits : shipment.frame.payload.length ≤ maxFrameLen) (callbacks : Callbacks) (now : Nat)
    (client : PayloadPipeline) :
    ∃ resolved shm'', recvResponse callbacks now id client shm' [shipment.frame] =
        (.ok resolved, client, shm'') ∧ shipment.Opens key resolved ∧ Idle shm'' := by
  obtain ⟨resolved, shm'', hresolve, hopens, hidle'⟩ := hidle.exchange hx hsent downlinkErrors
  refine ⟨resolved, shm'', ?_, hopens, hidle'⟩
  rw [← hopens.msgType_eq] at htype
  have hreceived : received shipment.frame = some shipment.frame := received_of_fits hlen hfits
  rw [recvResponse_cons hreceived hresolve, route_response htype]
  exact if_pos (hopens.requestId_eq.trans hid)

/-- The result of a call, by its answer. -/
def gained (cache : ResultCache) (now : Nat) (name : String) : CallAnswer → Except RequestError Bytes
  | .reference key => (cache.live now key).elim (.error (.text "cache ref miss")) .ok
  | .full body _ => .ok body
  | .unknown =>
      .error (.server (Externals.toVec .errorBody ⟨-32601, "unknown tool: " ++ name, none⟩))

omit [Externals] in
/-- The client's cache after it. -/
def kept (cache : ResultCache) (moment : Moment) (cacheKey : Option CacheKey) :
    CallAnswer → ResultCache
  | .reference key => (cache.get moment.now key).2
  | .full body cacheable =>
      match if cacheable then cacheKey else none with
      | some key => cache.put moment.putNow moment.order key body
      | none => cache
  | .unknown => cache

theorem finishRequest_answer {session : Session} {name : String} {answer : CallAnswer}
    {resolved : Frame} (hopens : (answerShipment session id name answer).Opens key resolved)
    (hkey : client.cipherKey = key) (moment : Moment) (cacheKey : Option CacheKey) :
    finishRequest client moment cacheKey resolved =
      (gained client.cache moment.now name answer,
        { client with cache := kept client.cache moment cacheKey answer }) := by
  rw [finishRequest_eq]
  cases answer with
  | reference referred =>
      rw [openResponse_reference hopens hkey rfl rfl, gained, kept]
      cases client.cache.live moment.now referred <;> rfl
  | full body cacheable =>
      rw [openResponse_body hopens hkey rfl rfl, gained, kept]
      change (_, recordBody client _ _ _ (if cacheable then cacheKey else none)) = _
      cases (if cacheable then cacheKey else none) <;> rfl
  | unknown =>
      have hunwrap := hopens.unwrap_eq client moment.now hkey
      rw [openResponse, hunwrap]
      simp only [hopens.msgType_eq]
      rfl

variable (client) in
/-- A call gets its answer, whatever notifications come before it. -/
theorem finishResponse_answer (hx : Externals.Lossless) (call : Call) {notices : List Shipment}
    {session : Session} {name : String} {answer : CallAnswer} {shm' : Option ShmRing}
    (hnotices : ∀ notice ∈ notices, notice.IsNotice key) (hidle : Idle shm)
    (hsent : Sent key shm (answerShipment session id name answer) shm')
    (hkey : client.cipherKey = key)
    (hfits : ∀ shipment ∈ notices ++ [answerShipment session id name answer],
      shipment.frame.payload.length ≤ maxFrameLen) (callbacks : Callbacks) :
    ∃ shm'', finishResponse call (recvResponse callbacks call.moment.now id client shm'
        ((notices ++ [answerShipment session id name answer]).map Shipment.frame)) =
        (gained client.cache call.moment.now name answer,
          { client with cache := kept client.cache call.moment call.cacheKey answer }, shm'') ∧
      Idle shm'' := by
  obtain ⟨hfitsNotices, hfitsAnswer⟩ := List.forall_mem_append.mp hfits
  have htype : (answerShipment session id name answer).msgType = .callToolResult ∨
      (answerShipment session id name answer).msgType = .error := by
    cases answer with
    | reference key => exact .inl rfl
    | full body cacheable => exact .inl rfl
    | unknown => exact .inr rfl
  obtain ⟨resolved, shm'', hrecv, hopens, hidle'⟩ := recvResponse_answer hx hidle hsent
    (id_answerShipment session id name answer) htype (payloadLen_answerShipment session id name answer)
    (hfitsAnswer _ (List.mem_singleton_self _)) callbacks call.moment.now client
  refine ⟨shm'', ?_, hidle'⟩
  rw [List.map_append, recvResponse_notices hx hnotices hfitsNotices hkey, List.map_singleton,
    hrecv, finishResponse, finishRequest_answer hopens hkey]

end Client

/-! ### One call -/

/-- The body of a call arrives as the name and arguments that serialise to the same bytes. -/
structure Call.Parses (call : Call) (params : CallToolParams) : Prop where
  parse_eq : Externals.fromSlice .callToolParams call.payload = some params
  name_eq : params.name = call.name
  args_eq : Externals.toVec .value params.arguments = Externals.toVec .value call.args

/-- The frames of a call are within the limit of the decoders. -/
structure Fits (s : State) (call : Call) : Prop where
  request_le : (request s call).1.payload.length ≤ maxFrameLen
  replies_le : ∀ frame ∈ Conn.queued (serve s call (request s call).1).actions,
    frame.payload.length ≤ maxFrameLen

omit [Externals] in
/-- The two ends between two calls. -/
structure Quiet (s : State) : Prop where
  flow_eq : s.flow = .next
  sameKey : s.client.cipherKey = s.session.pipeline.cipherKey
  authenticated_eq : s.session.authenticated = true
  cancelled_eq : s.session.cancelled = ∅
  shm_idle : Idle s.session.shm
  shmUp_idle : Idle s.session.shmUp

/-- The server's answer to a call. -/
def answered (s : State) (call : Call) (params : CallToolParams) :
    CallAnswer × ResultCache × Finset CacheKey :=
  answerCall call.env.toMoment s.shared.registry s.shared.cache s.session.delivered params.name
    params.arguments

/-- A call that went through. -/
structure Exchanged (s : State) (call : Call) (params : CallToolParams) (t : State) : Prop where
  quiet : Quiet t
  shared_eq : t.shared = { s.shared with cache := (answered s call params).2.1 }
  agentId_eq : t.session.agentId = s.session.agentId
  delivered_eq : t.session.delivered = (answered s call params).2.2
  cache_eq : t.client.cache =
    kept s.client.cache call.moment call.cacheKey (answered s call params).1
  outcomes_eq : ∃ frames, (∀ frame ∈ frames, frame.header.flags.cacheRef = true →
      ∃ key, (answered s call params).1 = .reference key) ∧
    t.outcomes = s.outcomes ++ [⟨call, frames,
      (toolKey s.shared.registry call.name call.args).bind fun key =>
        ((answered s call params).2.1.stored key).map Prod.fst,
      gained s.client.cache call.moment.now params.name (answered s call params).1⟩]

section Exchange

variable {s : State} {call : Call} {params : CallToolParams}

theorem cache_wrapShm (pipeline : PayloadPipeline) (shm : Option ShmRing) (msgType : MsgType)
    (id : UInt64) (payload : Bytes) :
    (wrapShm pipeline shm msgType id payload).2.1.cache = pipeline.cache := by
  rcases wrapShm_cases pipeline shm msgType id payload with ⟨_, _, _, _, _, hwrap⟩ | ⟨_, hwrap⟩
  · rw [hwrap]
  · rw [hwrap]
    simp only [PayloadPipeline.wrap, PayloadPipeline.encryptStage]
    cases pipeline.cipher <;> rfl

theorem cacheRef_wrapShm (pipeline : PayloadPipeline) (shm : Option ShmRing) (msgType : MsgType)
    (id : UInt64) (payload : Bytes) :
    (wrapShm pipeline shm msgType id payload).1.header.flags.cacheRef = false := by
  rcases wrapShm_cases pipeline shm msgType id payload with ⟨_, _, _, _, _, hwrap⟩ | ⟨_, hwrap⟩
  · rw [hwrap]
    exact (by decide : (FrameFlags.none.set FrameFlags.SHM_REF).cacheRef = false)
  · rw [hwrap]
    exact (PayloadPipeline.wrap_flags pipeline msgType id payload).2.1

/-- Only a reference has the flag of one. -/
theorem cacheRef_answerShipment (session : Session) (id : UInt64) (name : String)
    (answer : CallAnswer)
    (hreference : (answerShipment session id name answer).frame.header.flags.cacheRef = true) :
    ∃ key, answer = .reference key := by
  cases answer with
  | reference key => exact ⟨key, rfl⟩
  | full body cacheable =>
      have hplain := cacheRef_wrapShm session.pipeline session.shm .callToolResult id body
      cases cacheable with
      | false => exact absurd (hplain.symm.trans hreference) Bool.false_ne_true
      | true =>
          have hmarked := (FrameFlags.cacheRef_set_cacheable _).symm.trans hreference
          exact absurd (hplain.symm.trans hmarked) Bool.false_ne_true
  | unknown =>
      have hplain := (PayloadPipeline.wrap_flags session.pipeline .error id
        (Externals.toVec .errorBody ⟨-32601, "unknown tool: " ++ name, none⟩)).2.1
      exact absurd (hplain.symm.trans hreference) Bool.false_ne_true

theorem finish_eq {client client' : PayloadPipeline} {shared : Shared} {session : Session}
    {frames : List Frame} {result : Except RequestError Bytes} {shm : Option ShmRing}
    (hfinish : finishResponse call (recvResponse (call.callbacks s.nextId) call.moment.now s.nextId
      client session.shm frames) = (result, client', shm)) :
    Sequential.finish s call client ⟨shared, session, frames.map .queue, .next⟩ =
      { shared := shared
        session := { session with shm := shm }
        flow := .next
        client := client'
        nextId := s.nextId + 1
        outcomes := s.outcomes ++ [⟨call, frames,
          (toolKey s.shared.registry call.name call.args).bind fun key =>
            (shared.cache.stored key).map Prod.fst, result⟩] } := by
  rw [Sequential.finish]
  dsimp only
  rw [Conn.queued_map_queue, hfinish]

theorem exchanged_exchange (hx : Externals.Lossless) (hquiet : Quiet s) (hfits : Fits s call)
    (hparses : call.Parses params)
    (hgranted : s.shared.acl.check s.session.agentId call.name = .ok ()) :
    Exchanged s call params (exchange s call) := by
  obtain ⟨hflow, hsame, hauth, hcancelled, hdown, hup⟩ := hquiet
  obtain ⟨hparse, hname, hargs⟩ := hparses
  have hsent := sent_wrapShm s.client s.session.shmUp .callTool s.nextId call.payload false
  obtain ⟨resolved, shmUp, hresolve, hopens, hup'⟩ := hup.exchange hx hsent uplinkErrors
  have harrives : Arrives { s.session with shmUp := (request s call).2.2 } (request s call).1
      (bodyShipment s.client s.session.shmUp .callTool s.nextId call.payload false) call.payload
      shmUp :=
    ⟨⟨resolved, hresolve, hsame ▸ hopens⟩, rfl, rfl, hauth, by
      rw [hcancelled]
      exact Finset.notMem_empty _⟩
  obtain ⟨notices, announced, pipeline, shm, hserve, hkey, hanswer, hnotices⟩ :=
    handleFrame_granted_call call.env s.shared harrives hparse
      (by rw [hname]; exact hgranted)
  have hreceived : received (request s call).1 = some (request s call).1 :=
    received_of_fits payloadLen_wrapShm hfits.request_le
  have hserved : serve s call (request s call).1 = _ := hserve
  have hreplies := hfits.replies_le
  rw [hserved, Conn.queued_map_queue] at hreplies
  obtain ⟨shm', hfinish, hdown'⟩ := finishResponse_answer
    (request s call).2.1 hx call hnotices hdown hanswer
    ((cipherKey_wrapShm ..).trans hsame) (fun shipment hshipment =>
      hreplies _ (List.mem_map_of_mem hshipment)) (call.callbacks s.nextId)
  have hcache : (request s call).2.1.cache = s.client.cache := cache_wrapShm ..
  have hexchange : exchange s call =
      Sequential.finish s call (request s call).2.1 (serve s call (request s call).1) := by
    rw [exchange, if_pos hflow, hreceived]
  have hframes : ∀ frame ∈ (notices ++ [answerShipment
      { s.session with shmUp := shmUp, delivered := (answered s call params).2.2,
                       pipeline := announced } s.nextId params.name
      (answered s call params).1]).map Shipment.frame,
      frame.header.flags.cacheRef = true → ∃ key, (answered s call params).1 = .reference key := by
    intro frame hframe hreference
    obtain ⟨shipment, hshipment, rfl⟩ := List.mem_map.mp hframe
    rcases List.mem_append.mp hshipment with hnotice | hlast
    · rw [(hnotices shipment hnotice).cacheRef_eq] at hreference
      cases hreference
    · rw [List.mem_singleton.mp hlast] at hreference
      exact cacheRef_answerShipment _ _ _ _ hreference
  rw [hexchange, hserved, finish_eq hfinish, hcache]
  refine ⟨⟨rfl, ?_, hauth, hcancelled, hdown', hup'⟩, rfl, rfl, rfl, rfl, _, hframes, rfl⟩
  exact (cipherKey_wrapShm ..).trans (hsame.trans hkey.symm)

end Exchange

/-! ### The first call of a key -/

/-- The key of a call, as the server computes it. -/
def Call.key (registry : ToolRegistry) (call : Call) : Option CacheKey :=
  toolKey registry call.name call.args

/-- The client records what such a call returns. -/
def Call.Recorded (call : Call) : Prop :=
  call.progress = false ∧ (canonicalArgs call.args).length < shmThreshold

instance (call : Call) : Decidable call.Recorded := inferInstanceAs (Decidable (_ ∧ _))

/-- The first call of each key that is called more than once is one the client records. -/
def FirstRecorded (registry : ToolRegistry) (calls : List Call) : Prop :=
  ∀ key first, calls.find? (fun call => call.key registry = some key) = some first →
    2 ≤ calls.countP (fun call => call.key registry = some key) → first.Recorded

section First

variable {registry : ToolRegistry} {call first : Call} {past : List Call} {key : CacheKey}

theorem cacheKey_eq (hkey : call.key registry = some key) :
    call.cacheKey = if call.Recorded then some key else none := by
  obtain ⟨_, rfl⟩ := ServerCache.isCacheable_of_toolKey hkey
  by_cases hprogress : call.progress = true
  · have hnot : ¬ call.Recorded := fun hrecorded =>
      Bool.false_ne_true (hrecorded.1.symm.trans hprogress)
    rw [Call.cacheKey, if_pos hprogress, if_neg hnot]
  · rw [Call.cacheKey, if_neg hprogress, callToolKey]
    by_cases hshort : (canonicalArgs call.args).length < shmThreshold
    · rw [if_pos hshort, if_pos ⟨Bool.not_eq_true _ ▸ hprogress, hshort⟩]
      rfl
    · rw [if_neg hshort, if_neg fun hrecorded => hshort hrecorded.2]

/-- A call whose key was not called before is the first of its key. -/
theorem find_snoc_self (hkey : call.key registry = some key)
    (hfind : past.find? (fun call => call.key registry = some key) = none) :
    (past ++ [call]).find? (fun call => call.key registry = some key) = some call := by
  rw [List.find?_append, hfind, Option.none_or, List.find?_singleton]
  simp [hkey]

theorem find_snoc_of_some
    (hfind : past.find? (fun call => call.key registry = some key) = some first) :
    (past ++ [call]).find? (fun call => call.key registry = some key) = some first := by
  rw [List.find?_append, hfind, Option.some_or]

theorem find_snoc_of_ne (hkey : call.key registry ≠ some key) :
    (past ++ [call]).find? (fun call => call.key registry = some key) =
      past.find? (fun call => call.key registry = some key) := by
  rw [List.find?_append, List.find?_singleton]
  simp [hkey]

theorem firstRecorded_snoc :
    FirstRecorded registry (past ++ [call]) ↔ FirstRecorded registry past ∧
      ∀ key first, call.key registry = some key →
        past.find? (fun call => call.key registry = some key) = some first → first.Recorded := by
  have hcount : ∀ key, (past ++ [call]).countP (fun call => call.key registry = some key) =
      past.countP (fun call => call.key registry = some key) +
        if call.key registry = some key then 1 else 0 := by
    intro key
    rw [List.countP_append, List.countP_singleton]
    simp only [decide_eq_true_eq]
  refine ⟨fun h => ⟨?_, ?_⟩, fun ⟨hpast, hlast⟩ => ?_⟩
  · intro key first hfind htwice
    refine h key first (find_snoc_of_some hfind) ?_
    rw [hcount]
    omega
  · intro key first hkey hfind
    refine h key first (find_snoc_of_some hfind) ?_
    have honce : 0 < past.countP (fun call => call.key registry = some key) := by
      refine List.countP_pos_iff.mpr ⟨first, List.mem_of_find?_eq_some hfind, ?_⟩
      exact List.find?_some (p := fun call : Call => call.key registry = some key) hfind
    rw [hcount, if_pos hkey]
    omega
  · intro key first hfind htwice
    rw [hcount] at htwice
    cases hpastFind : past.find? (fun call => call.key registry = some key) with
    | some earlier =>
        rw [find_snoc_of_some hpastFind] at hfind
        obtain rfl := Option.some.inj hfind
        by_cases hkey : call.key registry = some key
        · exact hlast key earlier hkey hpastFind
        · rw [if_neg hkey] at htwice
          exact hpast key earlier hpastFind htwice
    | none =>
        have hzero : past.countP (fun call => call.key registry = some key) = 0 :=
          List.countP_eq_zero.mpr fun call hcall => List.find?_eq_none.mp hpastFind call hcall
        rw [hzero] at htwice
        split_ifs at htwice <;> omega

end First

/-! ### Agreement -/

/-- Bytes a run of the tool with the same argument bytes gave. -/
def Produced (registry : ToolRegistry) (name : String) (args : Value) (value : Bytes) : Prop :=
  ∃ occasion arguments result, Externals.toVec .value arguments = Externals.toVec .value args ∧
    registry.call occasion name arguments = some result ∧
    value = Externals.toVec .callToolResult result

/-- A call behaves as it does without caches. -/
structure Outcome.Agrees (registry : ToolRegistry) (outcome : Outcome) : Prop where
  resolved : ∀ frame ∈ outcome.frames, frame.header.flags.cacheRef = true →
    ∃ value, outcome.held = some value ∧ outcome.result = .ok value
  found : outcome.result ≠ .error (.text "cache ref miss")
  produced : registry.isCacheable outcome.call.name = true → ∃ value, outcome.result = .ok value ∧
    Produced registry outcome.call.name outcome.call.args value

/-- Every entry of a cache is a result of its tool. -/
def Genuine (registry : ToolRegistry) (inputs : Set (String × Value)) (cache : ResultCache) : Prop :=
  ∀ key value inserted, cache.stored key = some (value, inserted) → ∃ input ∈ inputs,
    key = .compute input.1 (Externals.toVec .value input.2) ∧
      Produced registry input.1 input.2 value

/-- One more call, while nothing expires and nothing is evicted. -/
structure Meets (inputs : Set (String × Value)) (s : State) (call : Call) : Prop where
  input : (call.name, call.args) ∈ inputs
  parses : ∃ params, call.Parses params
  granted : s.shared.acl.check s.session.agentId call.name = .ok ()
  fits : Fits s call
  serverSteady : ∀ key, call.key s.shared.registry = some key →
    s.shared.cache.Steady call.env.now call.env.order key
  clientSteady : ∀ key, call.key s.shared.registry = some key →
    s.client.cache.Steady call.moment.now call.moment.order key

omit [Externals] in
def State.calls (s : State) : List Call := s.outcomes.map Outcome.call

omit [Externals] in
/-- Neither end has the result of a key that was not called yet. -/
structure Unknown (s : State) (key : CacheKey) : Prop where
  not_delivered : key ∉ s.session.delivered
  not_stored : s.client.cache.stored key = none

/-- Both ends have the result of a key that was called, if the client recorded the first one. -/
structure Known (s : State) (key : CacheKey) (first : Call) : Prop where
  delivered : key ∈ s.session.delivered
  stored : ∃ value, (s.shared.cache.stored key).map Prod.fst = some value ∧
    (s.client.cache.stored key).map Prod.fst = if first.Recorded then some value else none

/-- The two caches, after some calls. -/
structure Inv (registry : ToolRegistry) (inputs : Set (String × Value)) (s : State) : Prop where
  quiet : Quiet s
  registry_eq : s.shared.registry = registry
  genuine : Genuine registry inputs s.shared.cache
  unknown : ∀ key, s.calls.find? (fun call => call.key registry = some key) = none → Unknown s key
  known : ∀ key first, s.calls.find? (fun call => call.key registry = some key) = some first →
    Known s key first
  agree_iff : (∀ outcome ∈ s.outcomes, outcome.Agrees registry) ↔ FirstRecorded registry s.calls

section Invariant

variable {registry : ToolRegistry} {inputs : Set (String × Value)} {s t : State} {call : Call}
  {params : CallToolParams} {key : CacheKey}

theorem inv_start {shared : Shared} {session : Session} {client : PayloadPipeline} {nextId : UInt64}
    (hnew : NewConnection client session) (hgenuine : Genuine shared.registry inputs shared.cache) :
    Inv shared.registry inputs (start shared session client nextId) := by
  have hring : ∀ {shm : Option ShmRing}, shm = none ∨ shm = some newRing → Idle shm := by
    rintro shm (rfl | rfl)
    · exact idle_none
    · exact idle_newRing
  refine ⟨⟨rfl, hnew.sameKey, hnew.authenticated_eq, hnew.cancelled_eq, hring hnew.shm_eq,
    hring hnew.shmUp_eq⟩, rfl, hgenuine, ?_, fun key first hfind => (by cases hfind), ?_⟩
  · refine fun key _ => ⟨?_, ?_⟩
    · change key ∉ session.delivered
      rw [hnew.delivered_eq]
      exact Finset.notMem_empty key
    · change client.cache.stored key = none
      rw [hnew.cache_eq, stored_new]
  · exact iff_of_true (fun _ hmem => absurd hmem List.not_mem_nil) fun key first hfind => by
      cases hfind

omit [Externals] in
theorem calls_snoc {frames : List Frame} {held : Option Bytes} {result : Except RequestError Bytes}
    (h : t.outcomes = s.outcomes ++ [⟨call, frames, held, result⟩]) :
    t.calls = s.calls ++ [call] := by
  rw [State.calls, h, List.map_append]
  rfl

omit [Externals] in
/-- Whether all calls agree, after one more. -/
theorem forall_outcomes_snoc {p : Outcome → Prop} {outcome : Outcome}
    (h : t.outcomes = s.outcomes ++ [outcome]) :
    (∀ other ∈ t.outcomes, p other) ↔ (∀ other ∈ s.outcomes, p other) ∧ p outcome := by
  rw [h, List.forall_mem_append, List.forall_mem_singleton]

theorem toolKey_params (hparses : call.Parses params) :
    toolKey registry params.name params.arguments = call.key registry := by
  rw [toolKey, hparses.name_eq, hparses.args_eq]
  rfl

omit [Externals] in
theorem Unknown.of_eq (h : Unknown s key)
    (hdelivered : key ∈ t.session.delivered ↔ key ∈ s.session.delivered)
    (hclient : t.client.cache.stored key = s.client.cache.stored key) : Unknown t key :=
  ⟨fun hmem => h.not_delivered (hdelivered.mp hmem), hclient.trans h.not_stored⟩

theorem Known.of_eq {first : Call} (h : Known s key first)
    (hdelivered : key ∈ t.session.delivered ↔ key ∈ s.session.delivered)
    (hserver : t.shared.cache.stored key = s.shared.cache.stored key)
    (hclient : t.client.cache.stored key = s.client.cache.stored key) : Known t key first := by
  refine ⟨hdelivered.mpr h.delivered, ?_⟩
  rw [hserver, hclient]
  exact h.stored

/-- A call of a tool that is not cacheable leaves both caches alone. -/
theorem Inv.uncacheable (h : Inv registry inputs s) (hexchanged : Exchanged s call params t)
    (hparses : call.Parses params) (hkey : call.key registry = none) : Inv registry inputs t := by
  have hnot : registry.isCacheable params.name = false := by
    by_contra hcacheable
    rw [← toolKey_params hparses, toolKey, if_pos (Bool.eq_true_of_not_eq_false hcacheable)] at hkey
    cases hkey
  have hanswered : answered s call params =
      ((registry.call call.env.occasion params.name params.arguments).elim .unknown
          fun result => .full (Externals.toVec .callToolResult result) false,
        s.shared.cache, s.session.delivered) := by
    rw [answered, h.registry_eq, answerCall_of_not_cacheable hnot]
    cases registry.call call.env.occasion params.name params.arguments <;> rfl
  obtain ⟨hquiet, hshared, _, hdelivered, hclient, frames, hframes, houtcomes⟩ := hexchanged
  rw [hanswered] at hshared hdelivered hclient hframes houtcomes
  have hserver : t.shared.cache = s.shared.cache := congrArg Shared.cache hshared
  have hsame : t.client.cache = s.client.cache := by
    rw [hclient]
    cases registry.call call.env.occasion params.name params.arguments <;> rfl
  have hfind : ∀ other, t.calls.find? (fun call => call.key registry = some other) =
      s.calls.find? (fun call => call.key registry = some other) := by
    intro other
    rw [calls_snoc houtcomes]
    exact find_snoc_of_ne (by rw [hkey]; exact (Option.some_ne_none other).symm)
  refine ⟨hquiet, (congrArg Shared.registry hshared).trans h.registry_eq, hserver ▸ h.genuine,
    ?_, ?_, ?_⟩
  · intro other hother
    exact (h.unknown other (hfind other ▸ hother)).of_eq (by rw [hdelivered]) (by rw [hsame])
  · intro other first hother
    exact (h.known other first (hfind other ▸ hother)).of_eq (by rw [hdelivered])
      (by rw [hserver]) (by rw [hsame])
  · rw [forall_outcomes_snoc houtcomes, calls_snoc houtcomes, firstRecorded_snoc, h.agree_iff]
    refine and_congr_right fun _ => iff_of_true ⟨?_, ?_, ?_⟩ ?_
    · intro frame hframe hreference
      obtain ⟨referred, hreferred⟩ := hframes frame hframe hreference
      cases hcall : registry.call call.env.occasion params.name params.arguments <;>
        rw [hcall] at hreferred <;> cases hreferred
    · change gained _ _ _ _ ≠ _
      cases registry.call call.env.occasion params.name params.arguments with
      | none => intro hmiss; cases hmiss
      | some result => intro hmiss; cases hmiss
    · intro hcacheable
      rw [← hparses.name_eq, hnot] at hcacheable
      cases hcacheable
    · intro other first hother
      rw [hkey] at hother
      cases hother

theorem cachedAnswer_answered (hmeets : Meets inputs s call) (hparses : call.Parses params)
    (hkey : call.key s.shared.registry = some key) :
    ∃ value, CachedAnswer call.env.toMoment s.shared.registry s.shared.cache s.session.delivered
      params.name params.arguments key value (answered s call params) :=
  cachedAnswer_answerCall ((toolKey_params hparses).trans hkey) (hmeets.serverSteady key hkey)

/-- What the server answers a call of a cacheable tool with is a result of the tool. -/
theorem Inv.produced (h : Inv registry inputs s) (hinputs : ServerCache.Inputs inputs)
    (hinput : (call.name, call.args) ∈ inputs) (hparses : call.Parses params)
    (hkey : call.key registry = some key) {value : Bytes}
    (hanswer : CachedAnswer call.env.toMoment registry s.shared.cache s.session.delivered
      params.name params.arguments key value (answered s call params)) :
    Produced registry call.name call.args value := by
  obtain ⟨_, hcompute⟩ := ServerCache.isCacheable_of_toolKey hkey
  cases hstored : s.shared.cache.stored key with
  | none =>
      obtain ⟨result, hcall, hvalue⟩ := hanswer.produced hstored
      rw [hparses.name_eq] at hcall
      exact ⟨_, params.arguments, result, hparses.args_eq, hcall, hvalue⟩
  | some entry =>
      obtain ⟨input, hmem, hown, hproduced⟩ := h.genuine key entry.1 entry.2 hstored
      obtain ⟨hname, hargs⟩ := hinputs.eq_of_key hmem hinput (hown.symm.trans hcompute)
      obtain ⟨inserted, hvalue⟩ := hanswer.stored
      rw [hanswer.kept key entry hstored] at hvalue
      rw [Option.some.inj hvalue, hname] at hproduced
      obtain ⟨occasion, arguments, result, hsame, hrun⟩ := hproduced
      exact ⟨occasion, arguments, result, hsame.trans hargs, hrun⟩

omit [Externals] in
/-- A cache that is about to take a key it does not have evicts nothing. -/
theorem evicted_of_steady {cache : ResultCache} {now : Nat} {order : List CacheKey}
    (hsteady : cache.Steady now order key) (hnone : cache.stored key = none) :
    cache.evicted order key = none := by
  have hevicted := hsteady.kept hnone
  have hlookup : cache.map.lookup key = none := Option.map_eq_none_iff.mp hnone
  rw [ResultCache.get, hlookup] at hevicted
  exact hevicted

omit [Externals] in
/-- A lookup of a key whose entry has not expired keeps every entry. -/
theorem get_stored_of_fresh {cache : ResultCache} {now : Nat}
    (hfresh : ∀ entry, cache.stored key = some entry → now - entry.2 ≤ cache.ttl)
    (other : CacheKey) : (cache.get now key).2.stored other = cache.stored other := by
  cases hlive : cache.live now key with
  | some value => exact ResultCache.get_stored_of_live hlive
  | none =>
      by_cases hother : other = key
      · subst hother
        rw [ResultCache.get_stored_of_miss hlive]
        rw [ResultCache.live_of_fresh hfresh] at hlive
        exact (Option.map_eq_none_iff.mp hlive).symm
      · exact ResultCache.get_stored_of_ne hother

/-- A call that is answered in full agrees. -/
theorem agrees_full {frames : List Frame} {held : Option Bytes} {value : Bytes}
    (hframes : ∀ frame ∈ frames, frame.header.flags.cacheRef ≠ true)
    (hproduced : Produced registry call.name call.args value) :
    (Outcome.mk call frames held (.ok value)).Agrees registry where
  resolved frame hframe hreference := absurd hreference (hframes frame hframe)
  found := nofun
  produced _ := ⟨value, rfl, hproduced⟩

/-- A call that is answered by a reference agrees exactly if the client has what is referred to. -/
theorem agrees_reference_iff {frames : List Frame} {held : Option Bytes} {value : Bytes}
    {cache : ResultCache} {now : Nat} {name : String} {recorded : Prop} [Decidable recorded]
    (hheld : held = some value) (hlive : cache.live now key = if recorded then some value else none)
    (hproduced : Produced registry call.name call.args value) :
    (Outcome.mk call frames held (gained cache now name (.reference key))).Agrees registry ↔
      recorded := by
  have hgained : gained cache now name (.reference key) =
      if recorded then .ok value else .error (.text "cache ref miss") := by
    rw [gained, hlive]
    split_ifs
    · rfl
    · rfl
  rw [hgained]
  by_cases hrecorded : recorded
  · rw [if_pos hrecorded]
    refine iff_of_true ⟨fun frame _ _ => ⟨value, hheld, rfl⟩, ?_, ?_⟩ hrecorded
    · intro hmiss
      cases hmiss
    · exact fun _ => ⟨value, rfl, hproduced⟩
  · rw [if_neg hrecorded]
    exact iff_of_false (fun hagrees => hagrees.found rfl) hrecorded

/-- The first call of a key is answered in full, and is recorded as its kind has it. -/
theorem Inv.first_call (h : Inv registry inputs s) (hinputs : ServerCache.Inputs inputs)
    (hmeets : Meets inputs s call) (hexchanged : Exchanged s call params t)
    (hparses : call.Parses params) (hkey : call.key registry = some key)
    (hfind : s.calls.find? (fun call => call.key registry = some key) = none) :
    Inv registry inputs t := by
  have hregistry := h.registry_eq
  subst hregistry
  obtain ⟨value, hanswer⟩ := cachedAnswer_answered hmeets hparses hkey
  have hproduced : Produced s.shared.registry call.name call.args value :=
    h.produced hinputs hmeets.input hparses hkey hanswer
  have hunknown := h.unknown key hfind
  have hfull : (answered s call params).1 = .full value true :=
    hanswer.answer_eq.trans (if_neg fun hheld => hunknown.not_delivered hheld.1)
  obtain ⟨hquiet, hshared, _, hdelivered, hclient, frames, hframes, houtcomes⟩ := hexchanged
  rw [hfull, kept, if_pos rfl, cacheKey_eq hkey] at hclient
  rw [hfull] at hframes houtcomes
  have hserver : t.shared.cache = (answered s call params).2.1 := congrArg Shared.cache hshared
  have hdelivered' : t.session.delivered = insert key s.session.delivered :=
    hdelivered.trans hanswer.delivered_eq
  have hroom : s.client.cache.evicted call.moment.order key = none :=
    evicted_of_steady (hmeets.clientSteady key hkey) hunknown.not_stored
  have hothers : ∀ other, other ≠ key →
      t.client.cache.stored other = s.client.cache.stored other := by
    intro other hother
    rw [hclient]
    by_cases hrecorded : call.Recorded
    · rw [if_pos hrecorded]
      exact ResultCache.put_stored_of_ne hother (by rw [hroom]; exact (Option.some_ne_none _).symm)
    · rw [if_neg hrecorded]
  have hmem : ∀ other, other ≠ key →
      (other ∈ t.session.delivered ↔ other ∈ s.session.delivered) := by
    intro other hother
    rw [hdelivered', Finset.mem_insert, or_iff_right hother]
  have hself : t.calls.find? (fun call => call.key s.shared.registry = some key) = some call := by
    rw [calls_snoc houtcomes]
    exact find_snoc_self hkey hfind
  have hfindOther : ∀ other, other ≠ key →
      t.calls.find? (fun call => call.key s.shared.registry = some other) =
        s.calls.find? (fun call => call.key s.shared.registry = some other) := by
    intro other hother
    rw [calls_snoc houtcomes]
    exact find_snoc_of_ne (by rw [hkey]; exact fun hsame => hother (Option.some.inj hsame).symm)
  refine ⟨hquiet, by rw [hshared], ?_, ?_, ?_, ?_⟩
  · intro other stored inserted hstored
    rw [hserver] at hstored
    by_cases hother : other = key
    · subst hother
      obtain ⟨at_, hvalue⟩ := hanswer.stored
      rw [hvalue] at hstored
      cases hstored
      exact ⟨_, hmeets.input, (ServerCache.isCacheable_of_toolKey hkey).2, hproduced⟩
    · rw [hanswer.others other hother] at hstored
      exact h.genuine other stored inserted hstored
  · intro other hnone
    have hother : other ≠ key := by
      rintro rfl
      rw [hself] at hnone
      cases hnone
    rw [hfindOther other hother] at hnone
    exact (h.unknown other hnone).of_eq (hmem other hother) (hothers other hother)
  · intro other first hsome
    by_cases hother : other = key
    · subst hother
      rw [hself] at hsome
      obtain rfl := Option.some.inj hsome
      refine ⟨hdelivered' ▸ Finset.mem_insert_self _ _, value, ?_, ?_⟩
      · obtain ⟨inserted, hvalue⟩ := hanswer.stored
        rw [hserver, hvalue]
        rfl
      · rw [hclient]
        by_cases hrecorded : call.Recorded
        · rw [if_pos hrecorded, if_pos hrecorded]
          exact congrArg (Option.map Prod.fst) ResultCache.put_stored_self
        · rw [if_neg hrecorded, if_neg hrecorded]
          exact congrArg (Option.map Prod.fst) hunknown.not_stored
    · rw [hfindOther other hother] at hsome
      exact (h.known other first hsome).of_eq (hmem other hother)
        (by rw [hserver, hanswer.others other hother]) (hothers other hother)
  · rw [forall_outcomes_snoc houtcomes, calls_snoc houtcomes, firstRecorded_snoc, h.agree_iff]
    refine and_congr_right fun _ => iff_of_true (agrees_full (fun frame hframe hreference => ?_)
      hproduced) ?_
    · obtain ⟨referred, hreferred⟩ := hframes frame hframe hreference
      cases hreferred
    · intro other first hother hsome
      obtain rfl := Option.some.inj (hkey.symm.trans hother)
      rw [hfind] at hsome
      cases hsome

/-- A later call of a key is answered by reference, and goes wrong unless the first was recorded. -/
theorem Inv.later_call (h : Inv registry inputs s) (hinputs : ServerCache.Inputs inputs)
    (hmeets : Meets inputs s call) (hexchanged : Exchanged s call params t)
    (hparses : call.Parses params) (hkey : call.key registry = some key) {first : Call}
    (hfind : s.calls.find? (fun call => call.key registry = some key) = some first) :
    Inv registry inputs t := by
  have hregistry := h.registry_eq
  subst hregistry
  obtain ⟨value, hanswer⟩ := cachedAnswer_answered hmeets hparses hkey
  have hproduced : Produced s.shared.registry call.name call.args value :=
    h.produced hinputs hmeets.input hparses hkey hanswer
  obtain ⟨hmem, held, hheld, hrecorded⟩ := h.known key first hfind
  obtain ⟨entry, hentry, rfl⟩ := Option.map_eq_some_iff.mp hheld
  have hreference : (answered s call params).1 = .reference key :=
    hanswer.answer_eq.trans (if_pos ⟨hmem, by rw [hentry]; rfl⟩)
  have hafter : (answered s call params).2.1.stored key = some entry := hanswer.kept key entry hentry
  have hvalue : entry.1 = value := by
    obtain ⟨inserted, hstored⟩ := hanswer.stored
    rw [hafter] at hstored
    exact congrArg Prod.fst (Option.some.inj hstored)
  obtain ⟨hquiet, hshared, _, hdelivered, hclient, frames, hframes, houtcomes⟩ := hexchanged
  rw [hreference, kept] at hclient
  rw [hreference] at hframes houtcomes
  have hserver : ∀ other, t.shared.cache.stored other = s.shared.cache.stored other := by
    intro other
    rw [show t.shared.cache = (answered s call params).2.1 from congrArg Shared.cache hshared]
    by_cases hother : other = key
    · rw [hother, hafter, hentry]
    · exact hanswer.others other hother
  have hcopies : t.session.delivered = s.session.delivered :=
    hdelivered.trans (hanswer.delivered_eq.trans (Finset.insert_eq_of_mem hmem))
  have hfresh := (hmeets.clientSteady key hkey).fresh
  have hsame : ∀ other, t.client.cache.stored other = s.client.cache.stored other := by
    intro other
    rw [hclient]
    exact get_stored_of_fresh hfresh other
  have hfindAny : ∀ other, t.calls.find? (fun call => call.key s.shared.registry = some other) =
      s.calls.find? (fun call => call.key s.shared.registry = some other) := by
    intro other
    rw [calls_snoc houtcomes]
    by_cases hother : other = key
    · rw [hother, find_snoc_of_some hfind, hfind]
    · exact find_snoc_of_ne (by rw [hkey]; exact fun heq => hother (Option.some.inj heq).symm)
  refine ⟨hquiet, by rw [hshared], ?_, ?_, ?_, ?_⟩
  · intro other stored inserted hstored
    rw [hserver] at hstored
    exact h.genuine other stored inserted hstored
  · intro other hnone
    rw [hfindAny] at hnone
    exact (h.unknown other hnone).of_eq (by rw [hcopies]) (hsame other)
  · intro other earlier hsome
    rw [hfindAny] at hsome
    exact (h.known other earlier hsome).of_eq (by rw [hcopies]) (hserver other) (hsame other)
  · rw [forall_outcomes_snoc houtcomes, calls_snoc houtcomes, firstRecorded_snoc, h.agree_iff]
    have honly : (∀ other earlier, call.key s.shared.registry = some other →
        s.calls.find? (fun call => call.key s.shared.registry = some other) = some earlier →
        earlier.Recorded) ↔ first.Recorded := by
      refine ⟨fun hall => hall key first hkey hfind, ?_⟩
      intro hfirst other earlier hother hsome
      obtain rfl := Option.some.inj (hkey.symm.trans hother)
      obtain rfl := Option.some.inj (hfind.symm.trans hsome)
      exact hfirst
    have hlive : s.client.cache.live call.moment.now key =
        if first.Recorded then some entry.1 else none :=
      (ResultCache.live_of_fresh hfresh).trans hrecorded
    have hheldAfter : ((toolKey s.shared.registry call.name call.args).bind fun key =>
        ((answered s call params).2.1.stored key).map Prod.fst) = some entry.1 := by
      rw [show toolKey s.shared.registry call.name call.args = some key from hkey,
        Option.bind_some, hafter]
      rfl
    rw [honly]
    exact and_congr_right fun _ => agrees_reference_iff hheldAfter hlive (hvalue ▸ hproduced)

theorem Inv.exchange (hx : Externals.Lossless) (hinputs : ServerCache.Inputs inputs)
    (h : Inv registry inputs s) (hmeets : Meets inputs s call) :
    Inv registry inputs (exchange s call) := by
  obtain ⟨params, hparses⟩ := hmeets.parses
  have hexchanged := exchanged_exchange hx h.quiet hmeets.fits hparses hmeets.granted
  cases hkey : call.key registry with
  | none => exact h.uncacheable hexchanged hparses hkey
  | some key =>
      cases hfind : s.calls.find? (fun call => call.key registry = some key) with
      | none => exact h.first_call hinputs hmeets hexchanged hparses hkey hfind
      | some first => exact h.later_call hinputs hmeets hexchanged hparses hkey hfind

end Invariant

theorem calls_exchange (s : State) (call : Call) : (exchange s call).calls = s.calls ++ [call] := by
  have hlost : (lost s call).calls = s.calls ++ [call] := calls_snoc rfl
  unfold exchange
  split_ifs
  · split
    · exact hlost
    · exact calls_snoc rfl
  · exact hlost

theorem calls_run {meets : State → Call → Prop} {s t : State} {calls : List Call}
    (hrun : Run step meets s calls t) : t.calls = s.calls ++ calls := by
  induction hrun with
  | nil s => exact (List.append_nil _).symm
  | cons hstep _ _ ih =>
      obtain rfl := Option.some.inj hstep
      rw [ih, calls_exchange, List.append_assoc, List.singleton_append]

omit [Externals] in
theorem steady_of_room {cache : ResultCache} {key : CacheKey}
    (hroom : cache.map.keys.length < cache.capacity) (order : List CacheKey) :
    cache.Steady 0 order key := by
  refine ⟨fun entry _ => by rw [Nat.zero_sub]; exact Nat.zero_le _, fun hnone => ?_⟩
  have hlookup : cache.map.lookup key = none := Option.map_eq_none_iff.mp hnone
  rw [ResultCache.get, hlookup]
  exact ResultCache.evicted_of_room hroom

def oneToolCall (progress : Bool) : Call :=
  ⟨"t", .null, progress, World.still.env 0, (World.still.env 0).toMoment⟩

omit [Externals] in
def oneToolStart : State := start oneToolServer (.new none) .new 1

/-- What is to be checked of a call of the one tool. -/
structure Checks (s : State) (call : Call) : Prop where
  granted : s.shared.acl.check s.session.agentId call.name = .ok ()
  request_le : (request s call).1.payload.length ≤ maxFrameLen
  replies_le : ∀ frame ∈ Conn.queued (serve s call (request s call).1).actions,
    frame.payload.length ≤ maxFrameLen
  server_room : s.shared.cache.map.keys.length < s.shared.cache.capacity
  client_room : s.client.cache.map.keys.length < s.client.cache.capacity

instance (s : State) (call : Call) : Decidable (Checks s call) :=
  decidable_of_iff
    (s.shared.acl.check s.session.agentId call.name = .ok () ∧
      (request s call).1.payload.length ≤ maxFrameLen ∧
      (∀ frame ∈ Conn.queued (serve s call (request s call).1).actions,
        frame.payload.length ≤ maxFrameLen) ∧
      s.shared.cache.map.keys.length < s.shared.cache.capacity ∧
      s.client.cache.map.keys.length < s.client.cache.capacity)
    ⟨fun ⟨h₁, h₂, h₃, h₄, h₅⟩ => ⟨h₁, h₂, h₃, h₄, h₅⟩,
      fun ⟨h₁, h₂, h₃, h₄, h₅⟩ => ⟨h₁, h₂, h₃, h₄, h₅⟩⟩

omit [Externals] in
theorem meets_oneToolCall : letI : Externals := .oneTool
    ∀ {s : State} {progress : Bool}, Checks s (oneToolCall progress) →
      Meets {("t", .null)} s (oneToolCall progress) := by
  let _ : Externals := .oneTool
  intro s progress h
  refine ⟨rfl, ?_, h.granted, ⟨h.request_le, h.replies_le⟩, ?_, ?_⟩
  · cases progress with
    | false => exact ⟨⟨"t", .null, none⟩, if_pos (by decide +kernel), rfl, rfl⟩
    | true =>
        have hparse := (if_neg (by decide +kernel) : Externals.fromSlice .callToolParams
          (oneToolCall true).payload = _).trans (if_pos (by decide +kernel))
        exact ⟨⟨"t", .null, some (.object [("progress", .bool true)])⟩, hparse, rfl, rfl⟩
  · exact fun _ _ => steady_of_room h.server_room _
  · exact fun _ _ => steady_of_room h.client_room _

omit [Externals] in
/-- Two calls, of either kind. -/
theorem run_two_calls : letI : Externals := .oneTool
    ∀ first second : Bool,
      Run step (Meets {("t", .null)}) oneToolStart [oneToolCall first, oneToolCall second]
        (exchange (exchange oneToolStart (oneToolCall first)) (oneToolCall second)) := by
  let _ : Externals := .oneTool
  intro first second
  have hfirst : Checks oneToolStart (oneToolCall first) := by
    cases first <;> decide +kernel
  have hsecond : Checks (exchange oneToolStart (oneToolCall first)) (oneToolCall second) := by
    cases first <;> cases second <;> decide +kernel
  exact .cons rfl (meets_oneToolCall hfirst) (.cons rfl (meets_oneToolCall hsecond) (.nil _))

end Sequential

end Ohmcp
