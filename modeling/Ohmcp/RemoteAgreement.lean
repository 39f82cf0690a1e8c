import Ohmcp.Remote
import Ohmcp.MessageCodec

/-! A client and a session agree with the registry at hand: whatever requests are made, whatever the
registry goes through and whatever events are pushed between them, every method returns what the registry
says at that moment, and every event that was announced before has led to its callback, if one is
registered. -/

open Transition Records

namespace Ohmcp

variable [Externals]

namespace Remote

open Negotiation (Short length_wrap sendable_wrap)

/-! ### What is relied on -/

/-- The text of the params a method prints is read as the object it was printed from. -/
def Request.Reads : Request → Prop
  | readResource uri => Serde.Reads .readResourceParams (uriParams uri) (.object [("uri", .string uri)])
  | subscribeResource uri =>
      Serde.Reads .subscribeResourceParams (uriParams uri) (.object [("uri", .string uri)])
  | unsubscribeResource uri =>
      Serde.Reads .subscribeResourceParams (uriParams uri) (.object [("uri", .string uri)])
  | getPrompt name arguments => Serde.Reads .getPromptParams (promptParams name arguments)
      (.object [("arguments", arguments), ("name", .string name)])
  | _ => True

/-- It is short enough for one frame as well. -/
structure Request.Readable (request : Request) : Prop where
  short : Short request.payload
  reads : request.Reads

/-- What the server finds in the params. -/
def Request.Parses : Request → Prop
  | readResource uri => Externals.fromSlice .readResourceParams (uriParams uri) = some ⟨uri⟩
  | subscribeResource uri =>
      Externals.fromSlice .subscribeResourceParams (uriParams uri) = some ⟨uri⟩
  | unsubscribeResource uri =>
      Externals.fromSlice .subscribeResourceParams (uriParams uri) = some ⟨uri⟩
  | getPrompt name arguments =>
      Externals.fromSlice .getPromptParams (promptParams name arguments) = some ⟨name, arguments⟩
  | _ => True

/-- The objects the client makes up by hand are the params the server asks for. -/
theorem Request.Readable.parses {request : Request} (h : request.Readable) : request.Parses := by
  have hreads := h.reads
  cases request with
  | readResource uri =>
      exact hreads.trans ((Schema.codec_returns_iff .readResourceParams ⟨uri⟩).mpr trivial)
  | subscribeResource uri =>
      exact hreads.trans ((Schema.codec_returns_iff .subscribeResourceParams ⟨uri⟩).mpr trivial)
  | unsubscribeResource uri =>
      exact hreads.trans ((Schema.codec_returns_iff .subscribeResourceParams ⟨uri⟩).mpr trivial)
  | getPrompt name arguments =>
      -- the client gives the two fields the other way round
      have hswap : (GetPromptParams.fields.known [("arguments", arguments), ("name", .string name)]).Perm
          (GetPromptParams.fields.known (GetPromptParams.fields.write ⟨name, arguments⟩)) :=
        List.Perm.swap _ _ _
      have hread := (Schema.codec_returns_iff .getPromptParams ⟨name, arguments⟩).mpr trivial
      exact hreads.trans ((Fields.readEntries_of_perm hswap).trans hread)
  | _ => trivial

/-- The body of a response. -/
def Answer.body : Answer → Bytes
  | tools result => Externals.toVec .listToolsResult result
  | resources result => Externals.toVec .listResourcesResult result
  | contents result => Externals.toVec .readResourceResult result
  | prompts result => Externals.toVec .listPromptsResult result
  | prompt result => Externals.toVec .getPromptResult result
  | done => utf8 "\x7b\x7d"

def Answer.Prints : Answer → Prop
  | tools result => Serde.Prints .listToolsResult result
  | resources result => Serde.Prints .listResourcesResult result
  | contents result => Serde.Prints .readResourceResult result
  | prompts result => Serde.Prints .listPromptsResult result
  | prompt result => Serde.Prints .getPromptResult result
  | done => True

omit [Externals] in
def Request.resultType : Request → MsgType
  | listTools => .listToolsResult
  | listResources => .listResourcesResult
  | readResource _ => .readResourceResult
  | subscribeResource _ => .subscribeResourceResult
  | unsubscribeResource _ => .subscribeResourceResult
  | listPrompts => .listPromptsResult
  | getPrompt _ _ => .getPromptResult
  | ping => .pong

/-- The type and the body of the frame that answers a request. -/
def Request.reply (request : Request) : Except ErrorBody Answer → MsgType × Bytes
  | .ok answer => (request.resultType, answer.body)
  | .error body => (.error, Externals.toVec .errorBody body)

/-- The answer comes through as well. -/
structure Request.Answerable (request : Request) (answer : Except ErrorBody Answer) : Prop where
  short : Short (request.reply answer).2
  prints : ∀ result, answer = .ok result → result.Prints

/-- The notification of an update comes through. -/
structure Notifiable (uri : String) : Prop where
  short : Short (Externals.toVec .resourceUpdatedParams ⟨uri⟩)
  prints : Serde.Prints .resourceUpdatedParams ⟨uri⟩

/-- What is sent is short enough for one frame, and its text is read as it was printed. -/
def Meets (s : State) : Op → Prop
  | .request request env _ => request.Readable ∧ request.Answerable
      (Directory.ask s.shared.registry s.session.subscribed env.occasion request).1
  | .event (.updated uri) => Notifiable uri
  | _ => True

/-- What the method makes of the answer is the answer. -/
theorem parse_ask {request : Request} {registry : ToolRegistry} {subscribed : Finset String}
    {occasion : Nat} {result : Answer}
    (hask : (Directory.ask registry subscribed occasion request).1 = .ok result)
    (hprints : result.Prints) : request.parse result.body = some result := by
  cases request with
  | listTools =>
      cases hask
      exact congrArg (Option.map _) (Serde.Prints.parses hprints trivial)
  | listResources =>
      cases hask
      exact congrArg (Option.map _) (Serde.Prints.parses hprints trivial)
  | listPrompts =>
      cases hask
      exact congrArg (Option.map _) (Serde.Prints.parses hprints trivial)
  | readResource uri =>
      rw [Directory.ask] at hask
      cases hread : registry.readResource uri with
      | none =>
          rw [hread] at hask
          cases hask
      | some contents =>
          rw [hread] at hask
          cases hask
          exact congrArg (Option.map _) (Serde.Prints.parses hprints trivial)
  | getPrompt name arguments =>
      rw [Directory.ask] at hask
      cases hprompt : registry.getPrompt occasion name arguments with
      | none =>
          rw [hprompt] at hask
          cases hask
      | some prompt =>
          rw [hprompt] at hask
          cases hask
          exact congrArg (Option.map _) (Serde.Prints.parses hprints trivial)
  | subscribeResource uri =>
      rw [Directory.ask] at hask
      split_ifs at hask
      cases hask
      rfl
  | unsubscribeResource uri =>
      cases hask
      rfl
  | ping =>
      cases hask
      rfl

/-! ### The server -/

section Server

variable {env : Environment} {shared : Shared} {session : Session} {frame resolved : Frame}
  {key : Option Bytes32} {request : Request} {shipment : Shipment} {shmUp : Option ShmRing}

/-- A request that arrives as it was sent. -/
structure Arrives (session : Session) (frame : Frame) (request : Request) (id : UInt64)
    (shmUp : Option ShmRing) (resolved : Frame) : Prop where
  resolve_eq : resolveRef uplinkErrors session.shmUp frame = (.ok resolved, shmUp)
  msgType_eq : resolved.header.msgType = request.msgType
  requestId_eq : resolved.header.requestId = id
  unwrap_eq : ∀ now, session.pipeline.unwrap now resolved = (.ok request.payload, session.pipeline)
  authenticated_eq : session.authenticated = true

/-- One frame answers it, with what the registry says. -/
theorem handleFrame_request (env : Environment) (shared : Shared) {id : UInt64}
    (harrives : Arrives session frame request id shmUp resolved) (hread : request.Readable) :
    handleFrame env shared session frame =
      let asked := Directory.ask shared.registry session.subscribed env.occasion request
      Ohmcp.answer shared { session with shmUp := shmUp, subscribed := asked.2 } id
        (request.reply asked.1).1 (request.reply asked.1).2 := by
  obtain ⟨hresolve, htype, hid, hunwrap, hauth⟩ := harrives
  have hresolved : resolveUplink session frame = (.ok resolved, { session with shmUp := shmUp }) := by
    rw [resolveUplink, hresolve]
  have hopened := hunwrap env.now
  rw [handleFrame_of_ok hresolved]
  cases request with
  | listTools =>
      simp only [dispatch, htype, hauth, Request.msgType, hid]
      rfl
  | listResources =>
      simp only [dispatch, htype, hauth, Request.msgType, hid]
      rfl
  | listPrompts =>
      simp only [dispatch, htype, hauth, Request.msgType, hid]
      rfl
  | ping =>
      simp only [dispatch, htype, hauth, Request.msgType, hid]
      rfl
  | readResource uri =>
      have hparse : Externals.fromSlice .readResourceParams (uriParams uri) = some ⟨uri⟩ := hread.parses
      simp only [dispatch, htype, hauth, Request.msgType, handleReadResource, withParams, hopened,
        Request.payload, hparse, hid, Directory.ask]
      cases shared.registry.readResource uri <;> rfl
  | getPrompt name arguments =>
      have hparse : Externals.fromSlice .getPromptParams (promptParams name arguments) =
          some ⟨name, arguments⟩ := hread.parses
      simp only [dispatch, htype, hauth, Request.msgType, handleGetPrompt, withParams, hopened,
        Request.payload, hparse, hid, Directory.ask]
      cases shared.registry.getPrompt env.occasion name arguments <;> rfl
  | subscribeResource uri =>
      have hparse : Externals.fromSlice .subscribeResourceParams (uriParams uri) = some ⟨uri⟩ := hread.parses
      simp only [dispatch, htype, hauth, Request.msgType, handleSubscribe, withParams, hopened,
        Request.payload, hparse, hid, Directory.ask]
      cases shared.registry.hasResource uri <;> rfl
  | unsubscribeResource uri =>
      have hparse : Externals.fromSlice .subscribeResourceParams (uriParams uri) = some ⟨uri⟩ := hread.parses
      simp only [dispatch, htype, hauth, Request.msgType, handleSubscribe, withParams, hopened,
        Request.payload, hparse, hid, Directory.ask]
      rfl

end Server

/-! ### The client -/

section Client

variable {key : Option Bytes32} {callbacks : Callbacks} {client : PayloadPipeline} {now : Nat}
  {id : UInt64} {shm : Option ShmRing}

/-- A notification on its way, and the event it tells of. -/
structure Pushed (key : Option Bytes32) (frame : Frame) (event : ResourceEvent) : Prop where
  wellFormed : frame.WellFormed
  inline : frame.header.flags.shmRef = false
  routes : ∀ (callbacks : Callbacks) (client : PayloadPipeline) (now : Nat), client.cipherKey = key →
    route callbacks client now frame = (.notification (Directory.callback callbacks event), client)

omit [Externals] in
theorem received_of_wellFormed {frame : Frame} (h : frame.WellFormed) :
    Sequential.received frame = some frame :=
  Sequential.received_of_fits h.payloadLen_eq h.length_le

theorem recvResponse_pushed {frame : Frame} {event : ResourceEvent} {frames : List Frame}
    (hpushed : Pushed key frame event) (hkey : client.cipherKey = key) :
    recvResponse callbacks now id client shm (frame :: frames) =
      { recvResponse callbacks now id client shm frames with
        called := (Directory.callback callbacks event).toList ++
          (recvResponse callbacks now id client shm frames).called } := by
  have hreceived := received_of_wellFormed hpushed.wellFormed
  have hresolve : resolveShm shm frame = (.ok frame, shm) := resolveRef_inline hpushed.inline
  change recvFrame callbacks now id client shm frame frames _ = _
  unfold recvFrame
  simp only [hreceived, hresolve, hpushed.routes callbacks client now hkey]

theorem recvResponse_reply {frame : Frame} {frames : List Frame} (hwf : frame.WellFormed)
    (hinline : frame.header.flags.shmRef = false)
    (hroute : route callbacks client now frame = (.response frame, client))
    (hid : frame.header.requestId = id) :
    recvResponse callbacks now id client shm (frame :: frames) =
      ⟨[], .ok frame, client, shm, frames⟩ := by
  have hresolve : resolveShm shm frame = (.ok frame, shm) := resolveRef_inline hinline
  change recvFrame callbacks now id client shm frame frames _ = _
  unfold recvFrame
  simp only [received_of_wellFormed hwf, hresolve, hroute, if_pos hid]

/-- The response is found behind the notifications, and their callbacks are made in order. -/
theorem recvResponse_pushes (callbacks : Callbacks) (now : Nat) (id : UInt64) (shm : Option ShmRing)
    {frames : List Frame} {events : List ResourceEvent} {reply : Frame}
    (h : List.Forall₂ (Pushed key) frames events) (hkey : client.cipherKey = key)
    (hwf : reply.WellFormed) (hinline : reply.header.flags.shmRef = false)
    (hroute : route callbacks client now reply = (.response reply, client))
    (hid : reply.header.requestId = id) :
    recvResponse callbacks now id client shm (frames ++ [reply]) =
      ⟨events.filterMap (Directory.callback callbacks), .ok reply, client, shm, []⟩ := by
  induction h with
  | nil =>
      rw [List.nil_append, recvResponse_reply hwf hinline hroute hid]
      rfl
  | @cons frame event frames events hpushed _ ih =>
      rw [List.cons_append, recvResponse_pushed hpushed hkey, ih]
      cases hcalled : Directory.callback callbacks event with
      | none => rw [List.filterMap_cons_none hcalled, Option.toList_none, List.nil_append]
      | some called => rw [List.filterMap_cons_some hcalled, Option.toList_some, List.singleton_append]

/-- What the method returns is what the registry says. -/
theorem finish_reply (hx : Externals.Lossless) (id : UInt64) {sender : PayloadPipeline} {request : Request}
    {answer : Except ErrorBody Answer}
    (hparse : ∀ result, answer = .ok result → request.parse result.body = some result)
    (hkey : sender.SameKey client) (moment : Moment) :
    ∃ result, finishRequest client moment none
        (sender.wrap (request.reply answer).1 id (request.reply answer).2).1 = (result, client) ∧
      request.finish result = Directory.result answer := by
  have hunwrap : client.unwrap moment.now
      (sender.wrap (request.reply answer).1 id (request.reply answer).2).1 =
        (.ok (request.reply answer).2, client) :=
    PayloadPipeline.unwrap_wrap hx hkey moment.now _
  rw [finishRequest, hunwrap]
  dsimp only
  rw [PayloadPipeline.wrap_msgType]
  cases answer with
  | ok answer =>
      have htype : request.resultType ≠ .error := by cases request <;> exact MsgType.noConfusion
      refine ⟨.ok answer.body, if_neg htype, ?_⟩
      rw [Request.finish, hparse answer rfl]
      rfl
  | error body => exact ⟨.error (.server _), if_pos rfl, rfl⟩

/-- The frame that answers a request is taken for the response. -/
theorem route_reply {sender : PayloadPipeline} {request : Request} {answer : Except ErrorBody Answer}
    (body : Bytes) :
    route callbacks client now (sender.wrap (request.reply answer).1 id body).1 =
      (.response (sender.wrap (request.reply answer).1 id body).1, client) := by
  rw [route, PayloadPipeline.wrap_msgType]
  cases answer with
  | ok answer => cases request <;> rfl
  | error body => rfl

end Client

/-! ### One request -/

/-- A request leaves in one frame, and the server finds in it what the client put there. -/
theorem exists_arrives (hx : Externals.Lossless) {client : PayloadPipeline} {session : Session}
    {request : Request} (id : UInt64) (hshort : Short request.payload)
    (hkey : client.cipherKey = session.pipeline.cipherKey) (hauth : session.authenticated = true)
    (hidle : Idle session.shmUp) :
    ∃ frame client' ring shmUp resolved,
      requestFrame client session.shmUp request.msgType id request.payload =
        (frame, client', ring) ∧
      frame.WellFormed ∧ client'.cipherKey = client.cipherKey ∧
      Arrives { session with shmUp := ring } frame request id shmUp resolved ∧ Idle shmUp := by
  have hsent := sent_wrapShm client session.shmUp request.msgType id request.payload false
  obtain ⟨resolved, shmUp, hresolve, hopens, hidle'⟩ := hidle.exchange hx hsent uplinkErrors
  have hwf : (wrapShm client session.shmUp request.msgType id request.payload).1.WellFormed := by
    rcases wrapShm_cases client session.shmUp request.msgType id request.payload with
      ⟨_, _, _, _, _, hwrap⟩ | ⟨_, hwrap⟩
    · rw [hwrap]
      exact wellFormed_shmRefFrame _ _ _ _
    · rw [hwrap]
      exact (sendable_wrap hx client request.msgType id hshort).1
  refine ⟨_, _, _, shmUp, resolved, rfl, hwf, cipherKey_wrapShm .., ⟨hresolve, hopens.msgType_eq,
    hopens.requestId_eq, fun now => ?_, hauth⟩, hidle'⟩
  exact hopens.unwrap_eq session.pipeline now hkey.symm

/-- The two ends, beside somebody who has the registry at hand. -/
structure Agrees (s : State) (d : Directory) : Prop where
  flow_eq : s.flow = .next
  sameKey : s.client.cipherKey = s.session.pipeline.cipherKey
  authenticated_eq : s.session.authenticated = true
  shmUp_idle : Idle s.session.shmUp
  registry_eq : s.shared.registry = d.registry
  subscribed_eq : s.session.subscribed = d.subscribed
  callbacks_eq : s.callbacks = d.callbacks
  pushes : List.Forall₂ (Pushed s.client.cipherKey) s.downlink d.announced
  outputs_eq : s.outputs = d.outputs

section Steps

variable {s t : State} {d : Directory}

theorem serve_eq (hflow : s.flow = .next) {frame : Frame} (hwf : frame.WellFormed)
    (env : Environment) (ring : Option ShmRing) :
    serve s env frame ring = handleFrame env s.shared { s.session with shmUp := ring } frame := by
  rw [serve, hflow]
  dsimp only
  rw [received_of_wellFormed hwf]

theorem exchange_eq {request : Request} {env : Environment} {moment : Moment} {frame response : Frame}
    {client client' client'' : PayloadPipeline} {ring shm : Option ShmRing} {handled : Handled}
    {called : List Callback} {unread : List Frame} {result : Except RequestError Bytes}
    (hrequest : requestFrame s.client s.session.shmUp request.msgType s.nextId request.payload =
      (frame, client, ring))
    (hserve : serve s env frame ring = handled)
    (hreceived : recvResponse s.callbacks moment.now s.nextId client handled.session.shm
      (s.downlink ++ Conn.queued handled.actions) = ⟨called, .ok response, client', shm, unread⟩)
    (hfinish : finishRequest client' moment none response = (result, client'')) :
    exchange s request env moment =
      { shared := handled.shared
        session := { handled.session with shm := shm }
        flow := handled.flow
        client := client''
        callbacks := s.callbacks
        nextId := s.nextId + 1
        downlink := unread
        outputs := s.outputs ++ [⟨request, called, request.finish result⟩] } := by
  rw [exchange, hrequest]
  dsimp only
  rw [hserve, hreceived]
  dsimp only
  rw [hfinish]

theorem agrees_exchange (hx : Externals.Lossless) (h : Agrees s d) {request : Request}
    {env : Environment} {moment : Moment} (hmeets : Meets s (.request request env moment)) :
    Agrees (exchange s request env moment) (d.next (.request request env moment)) := by
  obtain ⟨hread, hanswer⟩ := hmeets
  obtain ⟨frame, client, ring, shmUp, resolved, hrequest, hwf, hclient, harrives, hidle⟩ :=
    exists_arrives hx s.nextId hread.short h.sameKey h.authenticated_eq h.shmUp_idle
  have hserve := (serve_eq h.flow_eq hwf env ring).trans
    (handleFrame_request env s.shared harrives hread)
  dsimp only at hserve
  have hparse : ∀ result, (Directory.ask s.shared.registry s.session.subscribed env.occasion
      request).1 = .ok result → request.parse result.body = some result :=
    fun result hask => parse_ask hask (hanswer.prints result hask)
  generalize hasked : Directory.ask s.shared.registry s.session.subscribed env.occasion request =
    asked at hserve hanswer hparse
  have hkey : s.session.pipeline.SameKey client := hclient.trans h.sameKey
  obtain ⟨hreply, hinline⟩ := sendable_wrap hx s.session.pipeline (request.reply asked.1).1 s.nextId
    hanswer.short
  have hreceived := recvResponse_pushes s.callbacks moment.now s.nextId s.session.shm h.pushes hclient
    hreply hinline (route_reply _) rfl
  obtain ⟨result, hfinish, hresult⟩ := finish_reply hx s.nextId hparse hkey moment
  rw [exchange_eq hrequest hserve hreceived hfinish]
  have hnext : d.next (.request request env moment) =
      { d with
        subscribed := asked.2
        announced := []
        outputs := d.outputs ++ [⟨request, d.announced.filterMap (Directory.callback d.callbacks),
          Directory.result asked.1⟩] } := by
    rw [Directory.next, ← h.registry_eq, ← h.subscribed_eq, hasked]
  rw [hnext]
  refine ⟨rfl, ?_, h.authenticated_eq, hidle, h.registry_eq, rfl, h.callbacks_eq, .nil, ?_⟩
  · exact (hclient.trans h.sameKey).trans (PayloadPipeline.cipherKey_wrap _).symm
  · change s.outputs ++ _ = d.outputs ++ _
    rw [h.outputs_eq, hresult, h.callbacks_eq]

/-- The frame a session pushes for an event tells of it. -/
theorem pushed_notification (hx : Externals.Lossless) {session : Session} {event : ResourceEvent}
    {frame : Frame} {pipeline : PayloadPipeline}
    (hnote : Conn.notification session event = some (frame, pipeline))
    (hmeets : ∀ uri, event = .updated uri → Notifiable uri) :
    Pushed session.pipeline.cipherKey frame event ∧
      pipeline.cipherKey = session.pipeline.cipherKey := by
  rw [Conn.notification.eq_def] at hnote
  cases event with
  | updated uri =>
      dsimp only at hnote
      split_ifs at hnote
      have hwrap := Option.some.inj hnote
      obtain rfl : _ = frame := congrArg Prod.fst hwrap
      obtain rfl : _ = pipeline := congrArg Prod.snd hwrap
      obtain ⟨hshort, hprints⟩ := hmeets uri rfl
      have hparse := hprints.parses trivial
      obtain ⟨hwf, hinline⟩ := sendable_wrap hx session.pipeline .resourceUpdated 0 hshort
      refine ⟨⟨hwf, hinline, fun callbacks client now hkey => ?_⟩, PayloadPipeline.cipherKey_wrap _⟩
      have hunwrap : client.unwrap now (session.pipeline.wrap .resourceUpdated 0
          (Externals.toVec .resourceUpdatedParams ⟨uri⟩)).1 = (.ok _, client) :=
        PayloadPipeline.unwrap_wrap hx hkey now _
      rw [route, PayloadPipeline.wrap_msgType]
      simp only [notificationBody, hunwrap, hparse, Option.bind_some, Directory.callback]
  | listChanged =>
      dsimp only at hnote
      split_ifs at hnote with hauth
      have hwrap := Option.some.inj hnote
      obtain rfl : _ = frame := congrArg Prod.fst hwrap
      obtain rfl : _ = pipeline := congrArg Prod.snd hwrap
      have hshort : Short (utf8 "\x7b\x7d") := by
        rw [Short]
        exact (by decide +kernel : (utf8 "\x7b\x7d").length + 28 ≤ maxFrameLen)
      obtain ⟨hwf, hinline⟩ := sendable_wrap hx session.pipeline .resourceListChanged 0 hshort
      refine ⟨⟨hwf, hinline, fun callbacks client now _ => ?_⟩, PayloadPipeline.cipherKey_wrap _⟩
      rw [route, PayloadPipeline.wrap_msgType]
      rfl

/-- A session pushes a frame for the events it announces, and for no others. -/
theorem announces_eq {session : Session} (hauth : session.authenticated = true)
    (event : ResourceEvent) :
    Directory.announces session.subscribed event = (Conn.notification session event).isSome := by
  rw [Conn.notification.eq_def]
  cases event with
  | updated uri =>
      dsimp only
      by_cases hmem : uri ∈ session.subscribed
      · rw [Directory.announces, if_pos hmem]
        exact decide_eq_true hmem
      · rw [Directory.announces, if_neg hmem]
        exact decide_eq_false hmem
  | listChanged =>
      rw [hauth]
      rfl

theorem agrees_step (hx : Externals.Lossless) (h : Agrees s d) {op : Op}
    (hmeets : Meets s op) (hstep : step s op = some t) : Agrees t (d.next op) := by
  cases op with
  | request request env moment =>
      obtain rfl := Option.some.inj hstep
      exact agrees_exchange hx h hmeets
  | onResourceUpdated =>
      obtain rfl := Option.some.inj hstep
      refine ⟨h.flow_eq, h.sameKey, h.authenticated_eq, h.shmUp_idle, h.registry_eq,
        h.subscribed_eq, ?_, h.pushes, h.outputs_eq⟩
      rw [Directory.next, ← h.callbacks_eq]
  | onResourceListChanged =>
      obtain rfl := Option.some.inj hstep
      refine ⟨h.flow_eq, h.sameKey, h.authenticated_eq, h.shmUp_idle, h.registry_eq,
        h.subscribed_eq, ?_, h.pushes, h.outputs_eq⟩
      rw [Directory.next, ← h.callbacks_eq]
  | event event =>
      rw [step, if_pos h.flow_eq] at hstep
      have hannounces := announces_eq h.authenticated_eq event
      rw [h.subscribed_eq] at hannounces
      rcases hnote : Conn.notification s.session event with _ | ⟨frame, pipeline⟩
      · rw [hnote] at hstep hannounces
        obtain rfl := Option.some.inj hstep
        rw [Directory.next, hannounces]
        exact h
      · rw [hnote] at hstep hannounces
        obtain rfl := Option.some.inj hstep
        obtain ⟨hpushed, hkey⟩ := pushed_notification hx hnote
          fun uri huri => by
            subst huri
            exact hmeets
        rw [← h.sameKey] at hpushed hkey
        rw [Directory.next, hannounces]
        exact ⟨h.flow_eq, hkey.symm, h.authenticated_eq, h.shmUp_idle, h.registry_eq,
          h.subscribed_eq, h.callbacks_eq, List.rel_append h.pushes (.cons hpushed .nil),
          h.outputs_eq⟩
  | update uri text =>
      obtain rfl := Option.some.inj hstep
      refine ⟨h.flow_eq, h.sameKey, h.authenticated_eq, h.shmUp_idle, ?_, h.subscribed_eq,
        h.callbacks_eq, h.pushes, h.outputs_eq⟩
      rw [Directory.next, ← h.registry_eq]
      rfl
  | add uri name mime text =>
      obtain rfl := Option.some.inj hstep
      refine ⟨h.flow_eq, h.sameKey, h.authenticated_eq, h.shmUp_idle, ?_, h.subscribed_eq,
        h.callbacks_eq, h.pushes, h.outputs_eq⟩
      rw [Directory.next, ← h.registry_eq]
      rfl
  | others cache acl =>
      obtain rfl := Option.some.inj hstep
      exact ⟨h.flow_eq, h.sameKey, h.authenticated_eq, h.shmUp_idle, h.registry_eq,
        h.subscribed_eq, h.callbacks_eq, h.pushes, h.outputs_eq⟩

theorem exists_event (hflow : s.flow = .next) (event : ResourceEvent) :
    ∃ t, step s (.event event) = some t := by
  rw [step, if_pos hflow]
  cases Conn.notification s.session event with
  | some notice => exact ⟨_, rfl⟩
  | none => exact ⟨s, rfl⟩

/-- **Refinement.** A connected client is as good as the registry at hand. Whatever requests it makes,
whenever it registers its callbacks, however the registry changes and whatever events are pushed in
between, the session lives, each method returns what the registry says at that moment, the events that
were announced before it have led in order to the callbacks that are registered by then, and the
session's subscriptions are those the answers told of. -/
theorem remote_agrees (hx : Externals.Lossless) {shared : Shared} {session : Session}
    {client : PayloadPipeline} {callbacks : Callbacks} {nextId : UInt64}
    (hkey : client.cipherKey = session.pipeline.cipherKey) (hauth : session.authenticated = true)
    (hidle : Idle session.shmUp) {ops : List Op}
    (hrun : Run step Meets (start shared session client callbacks nextId) ops s) :
    let d := ops.foldl Directory.next ⟨shared.registry, session.subscribed, callbacks, [], []⟩
    s.flow = .next ∧ s.outputs = d.outputs ∧ s.shared.registry = d.registry ∧
      s.session.subscribed = d.subscribed ∧ s.callbacks = d.callbacks := by
  have hstart : Agrees (start shared session client callbacks nextId)
      ⟨shared.registry, session.subscribed, callbacks, [], []⟩ :=
    ⟨rfl, hkey, hauth, hidle, rfl, rfl, rfl, .nil, rfl⟩
  have hsimulates : ∀ s d op t, Agrees s d → Meets s op → step s op = some t → Agrees t (d.next op) :=
    fun _ _ _ _ h hmeets hstep => agrees_step hx h hmeets hstep
  have h := hrun.simulate hsimulates hstart
  exact ⟨h.flow_eq, h.outputs_eq, h.registry_eq, h.subscribed_eq, h.callbacks_eq⟩

end Steps

/-! ### One subscription -/

section Subscription

omit [Externals]

def uriJson : Bytes := utf8 "\x7b\"uri\":\"a\"\x7d"

/-- `serde_json` on the bodies of the run below. -/
@[reducible] def uriExternals : Externals := { Externals.plain with
  toVec := fun _ _ => uriJson
  fromSlice := fun schema => match schema with
    | .subscribeResourceParams => fun body => if body = uriJson then some ⟨"a"⟩ else none
    | .resourceUpdatedParams => fun body => if body = uriJson then some ⟨"a"⟩ else none
    | _ => fun _ => none }

theorem uriExternals_lossless : @Externals.Lossless uriExternals :=
  @Externals.Lossless.mk uriExternals
    (@Externals.Lossless.decompress_compress .plain Externals.plain_lossless)
    (@Externals.Lossless.decrypt_encrypt .plain Externals.plain_lossless)
    (@Externals.Lossless.length_encrypt .plain Externals.plain_lossless)

def offered : Shared :=
  ⟨ToolRegistry.new.registerResource "a" "a" "text/plain" "", .new 1 1, .new, none⟩

/-- The callback for updates is registered between the event and the request that hears of it. -/
def subscribedOps : List Op :=
  [.request (.subscribeResource "a") (World.still.env 0) (World.still.env 0).toMoment,
    .update "a" "b", .event (.updated "a"), .event .listChanged, .onResourceUpdated,
    .request .ping (World.still.env 0) (World.still.env 0).toMoment]

/-- An update of a subscribed resource comes before the answer to a ping, and a change of the list
nobody asked for leads to nothing. -/
theorem remote_agrees_subscribed :
    letI : Externals := uriExternals
    ∃ s : State, s.outputs.map (fun output => output.called.length) = [0, 1] ∧
      let d := subscribedOps.foldl Directory.next
        ⟨offered.registry, ∅, ⟨∅, false, false⟩, [], []⟩
      s.flow = .next ∧ s.outputs = d.outputs ∧ s.shared.registry = d.registry ∧
        s.session.subscribed = d.subscribed ∧ s.callbacks = d.callbacks := by
  let _ : Externals := uriExternals
  have hshort : Negotiation.Short uriJson := by
    rw [Negotiation.Short]
    exact (by decide +kernel : uriJson.length + 28 ≤ maxFrameLen)
  have hdone : Negotiation.Short (utf8 "\x7b\x7d") := by
    rw [Negotiation.Short]
    exact (by decide +kernel : (utf8 "\x7b\x7d").length + 28 ≤ maxFrameLen)
  have hempty : Negotiation.Short [] := Nat.le_of_ble_eq_true rfl
  have hanswer : ∀ request : Request, request.Answerable (.ok .done) := by
    intro request
    refine ⟨hdone, fun result hresult => ?_⟩
    rw [← Except.ok.inj hresult]
    exact trivial
  have hupdated : Run step Meets (start offered (.new none) .new ⟨∅, false, false⟩ 0)
      (subscribedOps.take 2) _ :=
    .cons rfl ⟨⟨hshort, rfl⟩, hanswer (.subscribeResource "a")⟩ (.cons rfl trivial (.nil _))
  have hflow := (remote_agrees uriExternals_lossless rfl rfl idle_none hupdated).1
  obtain ⟨t, hevent⟩ := exists_event hflow (.updated "a")
  have htold := hupdated.snoc hevent (⟨hshort, rfl⟩ : Notifiable "a")
  have hflow' := (remote_agrees uriExternals_lossless rfl rfl idle_none htold).1
  obtain ⟨u, hchanged⟩ := exists_event hflow' .listChanged
  have hping : Meets { u with callbacks := { u.callbacks with resourceUpdated := true } }
      (.request .ping (World.still.env 0) (World.still.env 0).toMoment) :=
    ⟨⟨hempty, trivial⟩, hanswer .ping⟩
  have hrun : Run step Meets (start offered (.new none) .new ⟨∅, false, false⟩ 0) subscribedOps _ :=
    htold.append (.cons hchanged trivial (.cons rfl trivial (.cons rfl hping (.nil _))))
  have h := remote_agrees uriExternals_lossless rfl rfl idle_none hrun
  refine ⟨_, ?_, h⟩
  rw [h.2.1]
  rfl

end Subscription

end Remote

end Ohmcp
