import Ohmcp.ToolCache
import Ohmcp.Credentials
import Ohmcp.ShmFrame

/-! What `handle_conn` does with one frame: the resolution of an uplink reference and the dispatch
on the message type. The result is the new shared and session state, what goes to the writer, and
whether the session continues. -/

namespace Ohmcp

variable [Externals]

/-! ### State -/

/-- What all connections of one server share. -/
structure Shared where
  registry : ToolRegistry
  cache : ResultCache
  acl : ToolAcl
  token : Option Bytes

/-- The local variables of `handle_conn`. -/
structure Session where
  pipeline : PayloadPipeline
  authenticated : Bool
  agentId : String
  /-- The keys whose full result this client was sent. -/
  delivered : Finset CacheKey
  /-- Server to client. -/
  shm : Option ShmRing
  /-- Client to server. -/
  shmUp : Option ShmRing
  /-- Request ids a cancellation arrived for, not yet come across. -/
  cancelled : Finset UInt64
  subscribed : Finset String

omit [Externals] in
def Session.new (token : Option Bytes) : Session where
  pipeline := .new
  authenticated := token.isNone
  agentId := "anonymous"
  delivered := ∅
  shm := none
  shmUp := none
  cancelled := ∅
  subscribed := ∅

/-- All that the handling of one frame depends on beside the program's own state. -/
structure Environment extends Moment where
  eph : EphemeralKeyPair
  noncePrefix : Bytes
  noncePrefix_length : noncePrefix.length = 4
  /-- Whether `memfd_create` and what follows it succeed, for each ring. -/
  ringMade : Bool
  upRingMade : Bool
  dupMade : Bool
  /-- Whether each `sendmsg` of a descriptor succeeds. -/
  downFdSent : Bool
  upFdSent : Bool
  declineSent : Bool

inductive Failure where
  | text (message : String)
  | json
  | core (e : CoreError)
  deriving DecidableEq

inductive Action where
  | queue (frame : Frame)
  | flush
  /-- A byte that goes to the socket past the writer's buffer, to carry a descriptor. -/
  | rawByte (byte : UInt8)

inductive Flow where
  | next
  /-- `return Ok(())` -/
  | returned
  /-- An error is propagated. -/
  | failed (failure : Failure)
  | panicked
  deriving DecidableEq

structure Handled where
  shared : Shared
  session : Session
  actions : List Action
  flow : Flow

/-! ### Replies -/

section Replies

variable (shared : Shared) (session : Session) (id : UInt64)

omit [Externals] in
/-- Nothing is written and the session continues. -/
def proceed : Handled := ⟨shared, session, [], .next⟩

omit [Externals] in
def stop (flow : Flow) : Handled := ⟨shared, session, [], flow⟩

/-- One wrapped frame is queued. -/
def answer (msgType : MsgType) (payload : Bytes) : Handled :=
  let (frame, pipeline) := session.pipeline.wrap msgType id payload
  ⟨shared, { session with pipeline := pipeline }, [.queue frame], .next⟩

def refuse (code : Int) (message : String) : Handled :=
  answer shared session id .error (Externals.toVec .errorBody ⟨code, message, none⟩)

/-- Unwraps and parses the body of a request. -/
def withParams (schema : Schema) (now : Nat) (frame : Frame)
    (body : Session → schema.Body → Handled) : Handled :=
  match session.pipeline.unwrap now frame with
  | (.error e, pipeline) => stop shared { session with pipeline := pipeline } (.failed (.text e))
  | (.ok data, pipeline) =>
      let session := { session with pipeline := pipeline }
      match Externals.fromSlice schema data with
      | none => stop shared session (.failed .json)
      | some params => body session params

end Replies

/-! ### Authentication and shared memory -/

/-- The token and the nonce of a response that verifies. -/
def acceptedAuth (token : Option Bytes) (params : AuthParams) :
    Except Panicked (Option (Bytes × Bytes)) :=
  match token, params.nonce with
  | some token, some nonce =>
      (unhex params.token).map fun response =>
        if verifyResponse token (utf8 nonce) (response.getD []) then some (token, utf8 nonce)
        else none
  | _, _ => .ok none

omit [Externals] in
def authClientPub (params : AuthParams) : Except Panicked (Option Bytes32) :=
  match params.ephPub with
  | none => .ok none
  | some text => unhex32 text

/-- The session key: with the ECDH secret when both ends sent a public key. -/
def sessionKey (eph : EphemeralKeyPair) (clientPub : Option Bytes32) (token nonce : Bytes) :
    Bytes32 :=
  match clientPub with
  | some peer => eph.deriveFsSessionKey peer token nonce
  | none => deriveSessionKey token nonce

def authResult (ok : Bool) (eph : Option EphemeralKeyPair) : AuthResult where
  ok := ok
  sessionKeyB64 := none
  reason := if ok then none else some "invalid token"
  ephPub := eph.map fun eph => hex eph.publicBytes.bytes

def handleAuth (env : Environment) (shared : Shared) (session : Session) (frame : Frame) :
    Handled :=
  match Externals.fromSlice .authParams frame.payload with
  | none => stop shared session (.failed .json)
  | some params =>
      match acceptedAuth shared.token params, authClientPub params with
      | .ok accepted, .ok clientPub =>
          let eph := if accepted.isSome && clientPub.isSome then some env.eph else none
          let reply := Frame.new .authResult frame.header.requestId
            (Externals.toVec .authResult (authResult accepted.isSome eph))
          match accepted with
          | some (token, nonce) =>
              ⟨{ shared with acl := shared.acl.grantAll params.agentId },
                { session with
                  authenticated := true
                  agentId := params.agentId
                  pipeline := session.pipeline.enableEncryption
                    (sessionKey env.eph clientPub token nonce)
                    env.noncePrefix env.noncePrefix_length },
                [.queue reply], .next⟩
          | none => ⟨shared, session, [.queue reply], .returned⟩
      | _, _ => stop shared session .panicked

/-- The bytes that carry the descriptors, and whether all of them went out. -/
def sendFds (env : Environment) : Bytes × Bool :=
  if env.ringMade && env.upRingMade then
    if env.downFdSent then if env.upFdSent then ([1, 1], true) else ([1], false) else ([], false)
  else if env.declineSent then ([0], true) else ([], false)

def newRing : ShmRing := .create defaultShmCap defaultShmCap_pos

def shmSetupResult (ok : Bool) : Value :=
  .object [("ok", .bool ok), ("size", .number (.posInt defaultShmCap)),
    ("up_size", .number (.posInt defaultShmCap))]

def handleShmSetup (env : Environment) (shared : Shared) (session : Session) (frame : Frame) :
    Handled :=
  if env.dupMade then
    let (bytes, sent) := sendFds env
    let ok := sent && env.ringMade && env.upRingMade
    let reply := answer shared session frame.header.requestId .shmSetupResult
      (Externals.toVec .value (shmSetupResult ok))
    let session :=
      if ok then { reply.session with shm := some newRing, shmUp := some newRing }
      else reply.session
    { reply with
      session := session
      actions := .flush :: bytes.map .rawByte ++ reply.actions }
  else ⟨shared, session, [.flush], .failed (.text "dup failed during shm setup")⟩

/-! ### Resources and prompts -/

def initializeResult : InitializeResult where
  protocolVersion := "2025-06-18"
  serverInfo := ⟨"ohmcpd", "0.1.0"⟩
  capabilities := .object [("prompts", .object []), ("resources", .object []),
    ("tools", .object [])]

def handleReadResource (env : Environment) (shared : Shared) (session : Session) (frame : Frame) :
    Handled :=
  withParams shared session .readResourceParams env.now frame fun session params =>
    match shared.registry.readResource params.uri with
    | some contents => answer shared session frame.header.requestId .readResourceResult
        (Externals.toVec .readResourceResult ⟨[contents]⟩)
    | none => refuse shared session frame.header.requestId (-32002)
        ("resource not found: " ++ params.uri)

def handleGetPrompt (env : Environment) (shared : Shared) (session : Session) (frame : Frame) :
    Handled :=
  withParams shared session .getPromptParams env.now frame fun session params =>
    match shared.registry.getPrompt env.occasion params.name params.arguments with
    | some result => answer shared session frame.header.requestId .getPromptResult
        (Externals.toVec .getPromptResult result)
    | none => refuse shared session frame.header.requestId (-32602)
        ("unknown prompt: " ++ params.name)

/-- Subscription and its removal. -/
def handleSubscribe (env : Environment) (shared : Shared) (session : Session) (frame : Frame) :
    Handled :=
  let isSub := frame.header.msgType = .subscribeResource
  withParams shared session .subscribeResourceParams env.now frame fun session params =>
    if isSub ∧ shared.registry.hasResource params.uri = false then
      refuse shared session frame.header.requestId (-32002) ("resource not found: " ++ params.uri)
    else
      let subscribed :=
        if isSub then insert params.uri session.subscribed else session.subscribed.erase params.uri
      answer shared { session with subscribed := subscribed } frame.header.requestId
        .subscribeResourceResult (utf8 "{}")

/-! ### Tool calls -/

/-- A cancellation gets no response; one whose body does not parse is ignored. -/
def handleCancel (env : Environment) (shared : Shared) (session : Session) (frame : Frame) :
    Handled :=
  match session.pipeline.unwrap env.now frame with
  | (.error e, pipeline) => stop shared { session with pipeline := pipeline } (.failed (.text e))
  | (.ok data, pipeline) =>
      let session := { session with pipeline := pipeline }
      match Externals.fromSlice .cancelParams data with
      | none => proceed shared session
      | some params =>
          proceed shared { session with cancelled := insert params.requestId session.cancelled }

/-- `_meta.progress` -/
def wantsProgress (params : CallToolParams) : Bool :=
  ((params.metadata.bind fun m => m.get "progress").bind Value.asBool).getD false

/-- The progress notification that comes before the run of a tool. -/
def announce (session : Session) (id : UInt64) (params : CallToolParams) :
    List Action × Session :=
  if wantsProgress params then
    let body : ProgressParams := ⟨id, 0, some 1, some ("executing " ++ params.name)⟩
    let (frame, pipeline) :=
      session.pipeline.wrap .progress id (Externals.toVec .progressParams body)
    ([.queue frame], { session with pipeline := pipeline })
  else ([], session)

/-- The result of a tool call, by way of the ring where it is large and fits. -/
def wrapMaybeShm (pipeline : PayloadPipeline) (shm : Option ShmRing) (id : UInt64)
    (payload : Bytes) : Frame × PayloadPipeline × Option ShmRing :=
  wrapShm pipeline shm .callToolResult id payload

omit [Externals] in
/-- `f.header.flags.0 |= FrameFlags::CACHEABLE` -/
def markCacheable (frame : Frame) : Frame :=
  { frame with
    header := { frame.header with flags := frame.header.flags.set FrameFlags.CACHEABLE } }

/-- Queues the answer to a tool call. -/
def answerFrame (shared : Shared) (session : Session) (id : UInt64) (name : String) :
    CallAnswer → Handled
  | .reference key =>
      let (frame, pipeline) := session.pipeline.wrapCacheRef .callToolResult id key
      ⟨shared, { session with pipeline := pipeline }, [.queue frame], .next⟩
  | .full body cacheable =>
      let (frame, pipeline, shm) := wrapMaybeShm session.pipeline session.shm id body
      let frame := if cacheable then markCacheable frame else frame
      ⟨shared, { session with pipeline := pipeline, shm := shm }, [.queue frame], .next⟩
  | .unknown => refuse shared session id (-32601) ("unknown tool: " ++ name)

/-- A call that is neither cancelled nor malformed. -/
def performCall (env : Environment) (shared : Shared) (session : Session) (id : UInt64)
    (params : CallToolParams) : Handled :=
  match shared.acl.check session.agentId params.name with
  | .error _ => refuse shared session id (-32002) ("access denied: " ++ params.name)
  | .ok () =>
      let (outcome, cache, delivered) := answerCall env.toMoment shared.registry shared.cache
        session.delivered params.name params.arguments
      answerFrame { shared with cache := cache } { session with delivered := delivered } id
        params.name outcome

def handleCallTool (env : Environment) (shared : Shared) (session : Session) (frame : Frame) :
    Handled :=
  let id := frame.header.requestId
  if id ∈ session.cancelled then
    refuse shared { session with cancelled := session.cancelled.erase id } id (-32800)
      "request cancelled"
  else
    withParams shared session .callToolParams env.now frame fun session params =>
      let (announced, session) := announce session id params
      let handled := performCall env shared session id params
      { handled with actions := announced ++ handled.actions }

/-! ### Dispatch -/

def uplinkErrors : RefErrors where
  noRing := "SHM_REF request but uplink not negotiated"
  malformed := "bad uplink shm ref payload"
  invalid _ _ := "invalid uplink shm ref"

omit [Externals] in
/-- Resolves a reference into the uplink ring. -/
def resolveUplink (session : Session) (frame : Frame) : Except String Frame × Session :=
  let (resolved, shmUp) := resolveRef uplinkErrors session.shmUp frame
  (resolved, { session with shmUp := shmUp })

def dispatch (env : Environment) (shared : Shared) (session : Session) (frame : Frame) : Handled :=
  let id := frame.header.requestId
  match frame.header.msgType, session.authenticated with
  | .auth, _ => handleAuth env shared session frame
  | _, false => refuse shared session id (-32001) "authentication required"
  | .shmSetup, true => handleShmSetup env shared session frame
  | .initializeRequest, true => answer shared session id .initializeResult
      (Externals.toVec .initializeResult initializeResult)
  | .listTools, true => answer shared session id .listToolsResult
      (Externals.toVec .listToolsResult ⟨shared.registry.tools⟩)
  | .listResources, true => answer shared session id .listResourcesResult
      (Externals.toVec .listResourcesResult ⟨shared.registry.resources⟩)
  | .readResource, true => handleReadResource env shared session frame
  | .listPrompts, true => answer shared session id .listPromptsResult
      (Externals.toVec .listPromptsResult ⟨shared.registry.prompts⟩)
  | .getPrompt, true => handleGetPrompt env shared session frame
  | .ping, true => answer shared session id .pong (utf8 "{}")
  | .subscribeResource, true => handleSubscribe env shared session frame
  | .unsubscribeResource, true => handleSubscribe env shared session frame
  | .cancel, true => handleCancel env shared session frame
  | .callTool, true => handleCallTool env shared session frame
  | _, true => proceed shared session

def handleFrame (env : Environment) (shared : Shared) (session : Session) (frame : Frame) :
    Handled :=
  match resolveUplink session frame with
  | (.error e, session) => stop shared session (.failed (.text e))
  | (.ok frame, session) => dispatch env shared session frame

end Ohmcp
