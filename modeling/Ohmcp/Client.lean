import Ohmcp.ShmFrame
import Ohmcp.ToolCache

/-! The client's side of a request: how it is framed, what the reading loop does with each frame
that arrives, and what becomes of the response. -/

namespace Ohmcp

variable [Externals]

/-! ### Sending -/

/-- The frame of a request: by way of the uplink ring where it is large and fits. -/
def requestFrame (pipeline : PayloadPipeline) (shmUp : Option ShmRing) (msgType : MsgType)
    (id : UInt64) (payload : Bytes) : Frame × PayloadPipeline × Option ShmRing :=
  wrapShm pipeline shmUp msgType id payload

/-- `serde_json::to_vec(&arguments)` -/
def canonicalArgs (arguments : Value) : Bytes := Externals.toVec .value arguments

/-- The payload `call_tool` puts together. -/
def callToolPayload (name : String) (arguments : Value) : Bytes :=
  utf8 "\x7b\"name\":" ++ Externals.toVec .string name ++ utf8 ",\"arguments\":" ++
    canonicalArgs arguments ++ utf8 "\x7d"

/-- The key `call_tool` will remember the result under; none for large arguments. -/
def callToolKey (name : String) (arguments : Value) : Option CacheKey :=
  if (canonicalArgs arguments).length < shmThreshold then
    some (.compute name (canonicalArgs arguments))
  else none

/-- The payload of `call_tool_with_progress`, whose result is never remembered. -/
def callToolWithProgressPayload (name : String) (arguments : Value) : Bytes :=
  Externals.toVec .value (.object [("_meta", .object [("progress", .bool true)]),
    ("arguments", arguments), ("name", .string name)])

/-! ### The reading loop -/

def downlinkErrors : RefErrors where
  noRing := "SHM_REF frame but shm channel not negotiated"
  malformed := "bad shm ref payload"
  invalid offset len :=
    "invalid shm ref (offset=" ++ toString offset ++ ", len=" ++ toString len.toNat ++ ")"

omit [Externals] in
/-- Replaces a reference into the downlink ring by the bytes it refers to. -/
def resolveShm (shm : Option ShmRing) (frame : Frame) : Except String Frame × Option ShmRing :=
  resolveRef downlinkErrors shm frame

/-- What the application is called back with. -/
inductive Callback where
  | progress (params : ProgressParams)
  | resourceUpdated (uri : String)
  | resourceListChanged

/-- The callbacks that are registered. -/
structure Callbacks where
  progress : Finset UInt64
  resourceUpdated : Bool
  resourceListChanged : Bool

/-- A notification and the callback it leads to; any other frame is a response. -/
inductive Routed where
  | notification (called : Option Callback)
  | response (frame : Frame)

/-- A notification's body, when it decrypts and parses. -/
def notificationBody (schema : Schema) (pipeline : PayloadPipeline) (now : Nat) (frame : Frame) :
    Option schema.Body × PayloadPipeline :=
  match pipeline.unwrap now frame with
  | (.ok body, pipeline) => (Externals.fromSlice schema body, pipeline)
  | (.error _, pipeline) => (none, pipeline)

/-- What the reading loop does with a frame whose reference is resolved. -/
def route (callbacks : Callbacks) (pipeline : PayloadPipeline) (now : Nat) (frame : Frame) :
    Routed × PayloadPipeline :=
  match frame.header.msgType with
  | .progress =>
      let (params, pipeline) := notificationBody .progressParams pipeline now frame
      let called := params.bind fun params =>
        if params.requestId ∈ callbacks.progress then some (.progress params) else none
      (.notification called, pipeline)
  | .resourceListChanged =>
      let called := if callbacks.resourceListChanged then some .resourceListChanged else none
      (.notification called, pipeline)
  | .resourceUpdated =>
      let (params, pipeline) := notificationBody .resourceUpdatedParams pipeline now frame
      let called := params.bind fun params =>
        if callbacks.resourceUpdated then some (.resourceUpdated params.uri) else none
      (.notification called, pipeline)
  | _ => (.response frame, pipeline)

/-! ### The response -/

inductive RequestError where
  | text (message : String)
  /-- The body of an `Error` frame. -/
  | server (body : Bytes)
  | core (e : CoreError)
  deriving DecidableEq

/-- Unwraps a response, and records a full cacheable result under the key of the call. -/
def finishRequest (pipeline : PayloadPipeline) (moment : Moment) (cacheKey : Option CacheKey)
    (response : Frame) : Except RequestError Bytes × PayloadPipeline :=
  match pipeline.unwrap moment.now response with
  | (.error e, pipeline) => (.error (.text e), pipeline)
  | (.ok body, pipeline) =>
      if response.header.msgType = .error then (.error (.server body), pipeline)
      else
        match cacheKey with
        | some key =>
            if response.header.flags.cacheable ∧ response.header.flags.cacheRef = false then
              (.ok body, pipeline.remember moment.putNow moment.order key body)
            else (.ok body, pipeline)
        | none => (.ok body, pipeline)

/-! ### The response in two steps

The cipher and the cache have locks of their own, so other tasks run between the unwrapping of a
response and the recording of its body. -/

/-- The body, and the key it is still to be recorded under if there is one. -/
def openResponse (pipeline : PayloadPipeline) (now : Nat) (cacheKey : Option CacheKey)
    (response : Frame) : Except RequestError (Bytes × Option CacheKey) × PayloadPipeline :=
  match pipeline.unwrap now response with
  | (.error e, pipeline) => (.error (.text e), pipeline)
  | (.ok body, pipeline) =>
      if response.header.msgType = .error then (.error (.server body), pipeline)
      else
        let recorded := response.header.flags.cacheable ∧ response.header.flags.cacheRef = false
        (.ok (body, if recorded then cacheKey else none), pipeline)

omit [Externals] in
def recordBody (pipeline : PayloadPipeline) (putNow : Nat) (order : List CacheKey) (body : Bytes) :
    Option CacheKey → PayloadPipeline
  | some key => pipeline.remember putNow order key body
  | none => pipeline

/-- Without other tasks in between, the two steps are `finishRequest`. -/
theorem finishRequest_eq (pipeline : PayloadPipeline) (moment : Moment)
    (cacheKey : Option CacheKey) (response : Frame) :
    finishRequest pipeline moment cacheKey response =
      match openResponse pipeline moment.now cacheKey response with
      | (.error e, pipeline) => (.error e, pipeline)
      | (.ok (body, key), pipeline) =>
          (.ok body, recordBody pipeline moment.putNow moment.order body key) := by
  unfold finishRequest openResponse
  rcases pipeline.unwrap moment.now response with ⟨body | body, after⟩
  · rfl
  · by_cases herror : response.header.msgType = .error
    · simp only [if_pos herror]
    · simp only [if_neg herror]
      by_cases hrecorded :
          response.header.flags.cacheable ∧ response.header.flags.cacheRef = false
      · simp only [if_pos hrecorded]
        cases cacheKey <;> rfl
      · simp only [if_neg hrecorded]
        cases cacheKey <;> rfl

end Ohmcp
