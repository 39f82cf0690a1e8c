import Ohmcp.SequentialCalls
import Ohmcp.Exchange

/-! The requests of a client other than tool calls, one after another over a connection: how each is
framed, what the server answers, and what the client makes of the answer. Beside it, what the same
requests come to for somebody who has the registry at hand. -/

open Transition

namespace Ohmcp

variable [Externals]

namespace Remote

/-! ### Requests -/

omit [Externals] in
inductive Request where
  | listTools
  | listResources
  | readResource (uri : String)
  | subscribeResource (uri : String)
  | unsubscribeResource (uri : String)
  | listPrompts
  | getPrompt (name : String) (arguments : Value)
  | ping

/-- What a method of the client returns. -/
inductive Answer where
  | tools (result : ListToolsResult)
  | resources (result : ListResourcesResult)
  | contents (result : ReadResourceResult)
  | prompts (result : ListPromptsResult)
  | prompt (result : GetPromptResult)
  | done

inductive ApiError where
  | request (e : RequestError)
  | json

/-- `json!({ "uri": uri })` -/
def uriParams (uri : String) : Bytes := Externals.toVec .value (.object [("uri", .string uri)])

def promptParams (name : String) (arguments : Value) : Bytes :=
  Externals.toVec .value (.object [("arguments", arguments), ("name", .string name)])

namespace Request

omit [Externals] in
def msgType : Request → MsgType
  | listTools => .listTools
  | listResources => .listResources
  | readResource _ => .readResource
  | subscribeResource _ => .subscribeResource
  | unsubscribeResource _ => .unsubscribeResource
  | listPrompts => .listPrompts
  | getPrompt _ _ => .getPrompt
  | ping => .ping

def payload : Request → Bytes
  | listTools => []
  | listResources => []
  | readResource uri => uriParams uri
  | subscribeResource uri => uriParams uri
  | unsubscribeResource uri => uriParams uri
  | listPrompts => []
  | getPrompt name arguments => promptParams name arguments
  | ping => []

/-- What the method makes of the body of the response. -/
def parse : Request → Bytes → Option Answer
  | listTools, body => (Externals.fromSlice .listToolsResult body).map .tools
  | listResources, body => (Externals.fromSlice .listResourcesResult body).map .resources
  | readResource _, body => (Externals.fromSlice .readResourceResult body).map .contents
  | subscribeResource _, _ => some .done
  | unsubscribeResource _, _ => some .done
  | listPrompts, body => (Externals.fromSlice .listPromptsResult body).map .prompts
  | getPrompt _ _, body => (Externals.fromSlice .getPromptResult body).map .prompt
  | ping, _ => some .done

def finish (request : Request) : Except RequestError Bytes → Except ApiError Answer
  | .error e => .error (.request e)
  | .ok body => (request.parse body).elim (.error .json) .ok

end Request

/-! ### The two ends -/

/-- A request that is over. -/
structure Output where
  request : Request
  /-- The callbacks made while the client waited for the response. -/
  called : List Callback
  result : Except ApiError Answer

structure State where
  shared : Shared
  session : Session
  /-- Whether the server still serves the connection. -/
  flow : Flow
  client : PayloadPipeline
  callbacks : Callbacks
  nextId : UInt64
  /-- What the client has not read. -/
  downlink : List Frame
  outputs : List Output

omit [Externals] in
def start (shared : Shared) (session : Session) (client : PayloadPipeline) (callbacks : Callbacks)
    (nextId : UInt64) : State :=
  ⟨shared, session, .next, client, callbacks, nextId, [], []⟩

/-- What the reading loop has come to: the callbacks, the response, the pipeline, the ring and the
frames that are left. -/
structure Received where
  called : List Callback
  response : Except RequestError Frame
  pipeline : PayloadPipeline
  shm : Option ShmRing
  unread : List Frame

/-- One pass of the reading loop of a request; `loop` is what comes after it. -/
def recvFrame (callbacks : Callbacks) (now : Nat) (id : UInt64) (pipeline : PayloadPipeline)
    (shm : Option ShmRing) (frame : Frame) (frames : List Frame)
    (loop : PayloadPipeline → Option ShmRing → Received) : Received :=
  match Sequential.received frame with
  | none => ⟨[], .error (.text "connection closed"), pipeline, shm, []⟩
  | some frame =>
      match resolveShm shm frame with
      | (.error e, shm) => ⟨[], .error (.text e), pipeline, shm, frames⟩
      | (.ok frame, shm) =>
          match route callbacks pipeline now frame with
          | (.notification called, pipeline) =>
              let rest := loop pipeline shm
              { rest with called := called.toList ++ rest.called }
          | (.response frame, pipeline) =>
              if frame.header.requestId = id then ⟨[], .ok frame, pipeline, shm, frames⟩
              else loop pipeline shm

/-- The reading loop, over the frames that arrive. -/
def recvResponse (callbacks : Callbacks) (now : Nat) (id : UInt64) (pipeline : PayloadPipeline)
    (shm : Option ShmRing) : List Frame → Received
  | [] => ⟨[], .error (.text "connection closed"), pipeline, shm, []⟩
  | frame :: frames =>
      recvFrame callbacks now id pipeline shm frame frames fun pipeline shm =>
        recvResponse callbacks now id pipeline shm frames

/-- What the server makes of a request. -/
def serve (s : State) (env : Environment) (frame : Frame) (shmUp : Option ShmRing) : Handled :=
  let session := { s.session with shmUp := shmUp }
  match s.flow with
  | .next =>
      match Sequential.received frame with
      | none => stop s.shared session (.failed (.text "frame not read"))
      | some frame => handleFrame env s.shared session frame
  | flow => stop s.shared session flow

/-- One request, from its frame to what the method returns. -/
def exchange (s : State) (request : Request) (env : Environment) (moment : Moment) : State :=
  let (frame, client, shmUp) :=
    requestFrame s.client s.session.shmUp request.msgType s.nextId request.payload
  let handled := serve s env frame shmUp
  let received := recvResponse s.callbacks moment.now s.nextId client handled.session.shm
    (s.downlink ++ Conn.queued handled.actions)
  let (result, client) : Except RequestError Bytes × PayloadPipeline :=
    match received.response with
    | .error e => (.error e, received.pipeline)
    | .ok response => finishRequest received.pipeline moment none response
  { shared := handled.shared
    session := { handled.session with shm := received.shm }
    flow := handled.flow
    client := client
    callbacks := s.callbacks
    nextId := s.nextId + 1
    downlink := received.unread
    outputs := s.outputs ++ [⟨request, received.called, request.finish result⟩] }

inductive Op where
  | request (request : Request) (env : Environment) (moment : Moment)
  | onResourceUpdated
  | onResourceListChanged
  /-- The waiting session takes an event. -/
  | event (event : ResourceEvent)
  | update (uri text : String)
  | add (uri name mime text : String)
  /-- What the other connections do. -/
  | others (cache : ResultCache) (acl : ToolAcl)

omit [Externals] in
def State.setRegistry (s : State) (registry : ToolRegistry) : State :=
  { s with shared := { s.shared with registry := registry } }

def step (s : State) : Op → Option State
  | .request request env moment => some (exchange s request env moment)
  | .onResourceUpdated => some { s with callbacks := { s.callbacks with resourceUpdated := true } }
  | .onResourceListChanged =>
      some { s with callbacks := { s.callbacks with resourceListChanged := true } }
  | .event event =>
      if s.flow = .next then
        match Conn.notification s.session event with
        | some (frame, pipeline) => some { s with
            session := { s.session with pipeline := pipeline }, downlink := s.downlink ++ [frame] }
        | none => some s
      else none
  | .update uri text => some (s.setRegistry (s.shared.registry.updateResource uri text).2.2)
  | .add uri name mime text => some (s.setRegistry (s.shared.registry.addResource uri name mime text).2)
  | .others cache acl => some { s with shared := { s.shared with cache := cache, acl := acl } }

/-! ### The registry at hand -/

omit [Externals] in
structure Directory where
  registry : ToolRegistry
  subscribed : Finset String
  callbacks : Callbacks
  /-- The events that the client is yet to hear of. -/
  announced : List ResourceEvent
  outputs : List Output

namespace Directory

omit [Externals] in
/-- What a request comes to, and the subscriptions after it. -/
def ask (registry : ToolRegistry) (subscribed : Finset String) (occasion : Nat) :
    Request → Except ErrorBody Answer × Finset String
  | .listTools => (.ok (.tools ⟨registry.tools⟩), subscribed)
  | .listResources => (.ok (.resources ⟨registry.resources⟩), subscribed)
  | .readResource uri =>
      match registry.readResource uri with
      | some contents => (.ok (.contents ⟨[contents]⟩), subscribed)
      | none => (.error ⟨-32002, "resource not found: " ++ uri, none⟩, subscribed)
  | .subscribeResource uri =>
      if registry.hasResource uri then (.ok .done, insert uri subscribed)
      else (.error ⟨-32002, "resource not found: " ++ uri, none⟩, subscribed)
  | .unsubscribeResource uri => (.ok .done, subscribed.erase uri)
  | .listPrompts => (.ok (.prompts ⟨registry.prompts⟩), subscribed)
  | .getPrompt name arguments =>
      match registry.getPrompt occasion name arguments with
      | some result => (.ok (.prompt result), subscribed)
      | none => (.error ⟨-32602, "unknown prompt: " ++ name, none⟩, subscribed)
  | .ping => (.ok .done, subscribed)

/-- How a refusal reaches the caller. -/
def result : Except ErrorBody Answer → Except ApiError Answer
  | .ok answer => .ok answer
  | .error body => .error (.request (.server (Externals.toVec .errorBody body)))

omit [Externals] in
/-- Whether a session with these subscriptions is told of an event. -/
def announces (subscribed : Finset String) : ResourceEvent → Bool
  | .updated uri => decide (uri ∈ subscribed)
  | .listChanged => true

omit [Externals] in
/-- The callback an event leads to when the client hears of it. -/
def callback (callbacks : Callbacks) : ResourceEvent → Option Callback
  | .updated uri => if callbacks.resourceUpdated then some (.resourceUpdated uri) else none
  | .listChanged => if callbacks.resourceListChanged then some .resourceListChanged else none

def next (d : Directory) : Op → Directory
  | .request request env _ =>
      let (answer, subscribed) := ask d.registry d.subscribed env.occasion request
      { d with
        subscribed := subscribed
        announced := []
        outputs := d.outputs ++
          [⟨request, d.announced.filterMap (callback d.callbacks), result answer⟩] }
  | .onResourceUpdated => { d with callbacks := { d.callbacks with resourceUpdated := true } }
  | .onResourceListChanged => { d with callbacks := { d.callbacks with resourceListChanged := true } }
  | .event event =>
      if announces d.subscribed event then { d with announced := d.announced ++ [event] } else d
  | .update uri text => { d with registry := (d.registry.updateResource uri text).2.2 }
  | .add uri name mime text => { d with registry := (d.registry.addResource uri name mime text).2 }
  | .others _ _ => d

end Directory

end Remote

end Ohmcp
