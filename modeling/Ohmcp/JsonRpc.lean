import Ohmcp.Hex

/-! The bridge between JSON-RPC 2.0 objects and frames, and what it keeps: the id and the params of
a request on the way in, the id of the request and the kind of message on the way out. -/

namespace Ohmcp.Rpc

variable [Externals]

/-! ### Requests -/

omit [Externals] in
/-- The frame type of a method and the payload it is sent with. -/
def requestOf (method : String) (params : Value) : Except CoreError (MsgType × Value) :=
  match method with
  | "initialize" => .ok (.initializeRequest, params)
  | "tools/list" => .ok (.listTools, params)
  | "tools/call" => .ok (.callTool, params)
  | "resources/list" => .ok (.listResources, params)
  | "resources/read" => .ok (.readResource, params)
  | "prompts/list" => .ok (.listPrompts, params)
  | "prompts/get" => .ok (.getPrompt, params)
  | "notifications/cancelled" => .ok (.cancel, params)
  | "ping" => .ok (.ping, .null)
  | other => .error (.codec ("unsupported method " ++ other))

omit [Externals] in
/-- `v.get("params").cloned().unwrap_or(Value::Null)` -/
def paramsOf (v : Value) : Value := (v.get "params").getD .null

def jsonrpcToFrame (v : Value) : Except CoreError Frame :=
  match (v.get "method").bind Value.asStr with
  | none => .error (.codec "missing method")
  | some method =>
      let id := ((v.get "id").bind Value.asU64).getD 0
      match requestOf method (paramsOf v) with
      | .error e => .error e
      | .ok (msgType, payload) =>
          let bytes := if payload.isNull then [] else Externals.toVec .value payload
          .ok (.new msgType id bytes)

/-! ### Responses -/

/-- An empty payload stands for `null`. -/
def bodyOf (payload : Bytes) : Except CoreError Value :=
  if payload = [] then .ok .null
  else
    match Externals.fromSlice .value payload with
    | some body => .ok body
    | none => .error .json

omit [Externals] in
def idValue (id : UInt64) : Value := .number (.posInt id.toNat)

def frameToJsonrpc (frame : Frame) : Except CoreError Value :=
  let id := idValue frame.header.requestId
  match bodyOf frame.payload with
  | .error e => .error e
  | .ok body =>
      .ok (match frame.header.msgType with
        | .error => .object [("error", body), ("id", id), ("jsonrpc", .string "2.0")]
        | .progress => .object [("jsonrpc", .string "2.0"),
            ("method", .string "notifications/progress"), ("params", body)]
        | .pong => .object [("id", id), ("jsonrpc", .string "2.0"), ("result", .object [])]
        | _ => .object [("id", id), ("jsonrpc", .string "2.0"), ("result", body)])

/-! ### What the bridge has to keep -/

omit [Externals] in
/-- The messages a server sends without a request. -/
def notificationTypes : List MsgType := [.progress, .resourceUpdated, .resourceListChanged]

omit [Externals] in
/-- The ids JSON-RPC allows: strings and integers. -/
def IsId : Value → Prop
  | .string _ | .number (.posInt _) | .number (.negInt _) => True
  | _ => False

/-- `serde_json` reads back what it printed. -/
structure ReadsBack (value : Value) : Prop where
  parses : Externals.fromSlice .value (Externals.toVec .value value) = some value
  nonempty : Externals.toVec .value value ≠ []

/-- A request the bridge accepts. -/
structure Request (v : Value) : Prop where
  accepted : ∃ frame, jsonrpcToFrame v = .ok frame
  hasId : ∃ id : Value, IsId id ∧ v.get "id" = some id
  readsBack : paramsOf v ≠ .null → ReadsBack (paramsOf v)

/-- The frame of a request carries its params, and whatever answers it gets its id back. -/
structure Carried (v : Value) (frame : Frame) : Prop where
  params_eq : bodyOf frame.payload = .ok (paramsOf v)
  id_eq : ∀ reply value, reply.header.requestId = frame.header.requestId →
    reply.header.msgType ∉ notificationTypes → frameToJsonrpc reply = .ok value →
      value.get "id" = v.get "id"

omit [Externals] in
/-- The object of a message with a given body. -/
def Mapped (frame : Frame) (body value : Value) : Prop :=
  if frame.header.msgType ∈ notificationTypes then
    (∃ method, value.get "method" = some (.string method)) ∧ value.get "id" = none ∧
      value.get "params" = some body
  else
    value.get "id" = some (idValue frame.header.requestId) ∧
      (value.get "result" ≠ none ∨ value.get "error" ≠ none)

/-- Nothing is lost among these requests and these frames of the server. -/
structure Bridged (requests : List Value) (frames : List Frame) : Prop where
  carried : ∀ v ∈ requests, ∀ frame, jsonrpcToFrame v = .ok frame → Carried v frame
  distinct : ∀ v ∈ requests, ∀ v' ∈ requests, v.get "id" ≠ v'.get "id" →
    ∀ frame frame', jsonrpcToFrame v = .ok frame → jsonrpcToFrame v' = .ok frame' →
      frame.header.requestId ≠ frame'.header.requestId
  mapped : ∀ frame ∈ frames, ∀ body, bodyOf frame.payload = .ok body →
    ∃ value, frameToJsonrpc frame = .ok value ∧ Mapped frame body value

omit [Externals] in
/-- The requests the bridge has room for. -/
structure Fits (v : Value) : Prop where
  id_eq : ∃ n < 2 ^ 64, v.get "id" = some (.number (.posInt n))
  ping : v.get "method" = some (.string "ping") → paramsOf v = .null

/-! ### One request -/

section Requests

variable {v : Value} {frame : Frame}

omit [Externals] in
/-- Only a ping loses its params. -/
theorem requestOf_payload {method : String} {params payload : Value} {msgType : MsgType}
    (h : requestOf method params = .ok (msgType, payload)) :
    payload = if method = "ping" then .null else params := by
  rw [requestOf.eq_def] at h
  split at h <;> cases h <;> rfl

omit [Externals] in
theorem asStr_eq_some {text : String} (h : v.asStr = some text) : v = .string text := by
  cases v with
  | string s => exact congrArg _ (Option.some.inj h)
  | _ => cases h

omit [Externals] in
theorem isNull_iff : v.isNull = true ↔ v = .null := by
  cases v with
  | null => exact iff_of_true rfl rfl
  | _ => exact iff_of_false nofun nofun

/-- What a frame of the bridge is made of. -/
theorem frame_of_accepted (h : jsonrpcToFrame v = .ok frame) :
    ∃ method msgType payload, v.get "method" = some (.string method) ∧
      payload = (if method = "ping" then .null else paramsOf v) ∧
      frame = .new msgType (((v.get "id").bind Value.asU64).getD 0)
        (if payload.isNull then [] else Externals.toVec .value payload) := by
  rw [jsonrpcToFrame] at h
  rcases hmethod : (v.get "method").bind Value.asStr with _ | method
  · rw [hmethod] at h
    cases h
  · rw [hmethod] at h
    dsimp only at h
    rcases hrequest : requestOf method (paramsOf v) with e | ⟨msgType, payload⟩
    · rw [hrequest] at h
      cases h
    · rw [hrequest] at h
      obtain ⟨text, htext, hstr⟩ := Option.bind_eq_some_iff.mp hmethod
      rw [asStr_eq_some hstr] at htext
      exact ⟨method, msgType, payload, htext, requestOf_payload hrequest,
        (Except.ok.inj h).symm⟩

/-- The payload parses back to the params that were printed. -/
theorem bodyOf_printed {payload : Value} (hreads : payload ≠ .null → ReadsBack payload) :
    bodyOf (if payload.isNull then [] else Externals.toVec .value payload) = .ok payload := by
  by_cases hnull : payload = .null
  · rw [if_pos (isNull_iff.mpr hnull), hnull, bodyOf, if_pos rfl]
  · rw [if_neg (mt isNull_iff.mp hnull), bodyOf, if_neg (hreads hnull).nonempty,
      (hreads hnull).parses]

/-- The frame carries the params exactly when they are no params of a ping. -/
theorem params_carried_iff (hrequest : Request v) (hframe : jsonrpcToFrame v = .ok frame) :
    bodyOf frame.payload = .ok (paramsOf v) ↔
      (v.get "method" = some (.string "ping") → paramsOf v = .null) := by
  obtain ⟨method, msgType, payload, hmethod, hpayload, rfl⟩ := frame_of_accepted hframe
  have hreads : payload ≠ .null → ReadsBack payload := by
    intro hne
    by_cases hping : method = "ping"
    · rw [hpayload, if_pos hping] at hne
      exact absurd rfl hne
    · rw [hpayload, if_neg hping] at hne ⊢
      exact hrequest.readsBack hne
  have hbody := bodyOf_printed hreads
  constructor
  · intro hparams hping
    rw [hmethod] at hping
    rw [if_pos (Value.string.inj (Option.some.inj hping))] at hpayload
    exact Except.ok.inj (hparams.symm.trans (hbody.trans (congrArg _ hpayload)))
  · intro hping
    refine hbody.trans (congrArg _ ?_)
    rw [hpayload]
    split_ifs with heq
    · exact (hping (hmethod.trans (congrArg _ (congrArg _ heq)))).symm
    · rfl

omit [Externals] in
theorem asU64_posInt {n : Nat} (hlt : n < 2 ^ 64) :
    (Value.number (.posInt n)).asU64 = some (.ofNat n) := if_pos hlt

/-- The frame names the id of its request exactly when that is an unsigned 64-bit integer. -/
theorem id_kept_iff (hframe : jsonrpcToFrame v = .ok frame) :
    v.get "id" = some (idValue frame.header.requestId) ↔
      ∃ n < 2 ^ 64, v.get "id" = some (.number (.posInt n)) := by
  obtain ⟨method, msgType, payload, hmethod, hpayload, rfl⟩ := frame_of_accepted hframe
  constructor
  · intro hid
    exact ⟨_, UInt64.toNat_lt _, hid⟩
  · rintro ⟨n, hlt, hid⟩
    have hu64 : ((v.get "id").bind Value.asU64).getD 0 = .ofNat n := by
      rw [hid, Option.bind_some, asU64_posInt hlt, Option.getD_some]
    rw [Frame.new, hu64, hid, idValue, UInt64.toNat_ofNat_of_lt' hlt]

end Requests

/-! ### One answer -/

section Answers

variable {reply : Frame} {value : Value}

/-- An answer names the id of its frame. -/
theorem get_id_of_answer (htype : reply.header.msgType ∉ notificationTypes)
    (h : frameToJsonrpc reply = .ok value) : value.get "id" = some (idValue reply.header.requestId) := by
  rw [frameToJsonrpc] at h
  rcases hbody : bodyOf reply.payload with e | body
  · rw [hbody] at h
    cases h
  · rw [hbody] at h
    obtain rfl := Except.ok.inj h
    split
    · rfl
    · exact absurd (by rw [‹reply.header.msgType = _›]; decide) htype
    · rfl
    · rfl

/-- There is an answer for every id. -/
theorem pong_answers (id : UInt64) : frameToJsonrpc (.new .pong id []) =
    .ok (.object [("id", idValue id), ("jsonrpc", .string "2.0"), ("result", .object [])]) := rfl

/-- The object is right for every frame but two kinds of notification. -/
theorem mapped_iff {body : Value} (hbody : bodyOf reply.payload = .ok body) :
    (∃ value, frameToJsonrpc reply = .ok value ∧ Mapped reply body value) ↔
      reply.header.msgType ≠ .resourceUpdated ∧ reply.header.msgType ≠ .resourceListChanged := by
  obtain ⟨⟨flags, msgType, id, len⟩, payload⟩ := reply
  by_cases htype : msgType = .resourceUpdated ∨ msgType = .resourceListChanged
  · -- the catch-all arm gives a notification an id
    have hobject : frameToJsonrpc ⟨⟨flags, msgType, id, len⟩, payload⟩ = .ok (.object
        [("id", idValue id), ("jsonrpc", .string "2.0"), ("result", body)]) := by
      rcases htype with rfl | rfl <;> rw [frameToJsonrpc, hbody]
    have hnotification : msgType ∈ notificationTypes := by
      rcases htype with rfl | rfl <;> decide
    refine iff_of_false ?_ fun h => htype.elim h.1 h.2
    rintro ⟨value, hvalue, hmapped⟩
    rw [hobject] at hvalue
    obtain rfl := Except.ok.inj hvalue
    rw [Mapped, if_pos hnotification] at hmapped
    cases hmapped.2.1
  · refine iff_of_true ?_ (not_or.mp htype)
    by_cases hprogress : msgType = .progress
    · subst hprogress
      refine ⟨_, by rw [frameToJsonrpc, hbody], ?_⟩
      rw [Mapped, if_pos (by decide : MsgType.progress ∈ notificationTypes)]
      exact ⟨⟨_, rfl⟩, rfl, rfl⟩
    · have hanswer : msgType ∉ notificationTypes := by
        intro hmem
        rcases List.mem_cons.mp hmem with rfl | hmem
        · exact hprogress rfl
        · exact htype ((List.mem_cons.mp hmem).imp_right List.mem_singleton.mp)
      rcases hvalue : frameToJsonrpc ⟨⟨flags, msgType, id, len⟩, payload⟩ with e | value
      · rw [frameToJsonrpc, hbody] at hvalue
        cases hvalue
      · refine ⟨value, rfl, ?_⟩
        rw [Mapped, if_neg hanswer]
        refine ⟨get_id_of_answer hanswer hvalue, ?_⟩
        rw [frameToJsonrpc, hbody] at hvalue
        obtain rfl := Except.ok.inj hvalue
        cases msgType with
        | error => exact .inr nofun
        | progress => exact absurd rfl hprogress
        | _ => exact .inl nofun

end Answers

/-! ### The bridge -/

section Bridge

variable {requests : List Value} {frames : List Frame}

theorem carried_iff {v : Value} {frame : Frame} (hrequest : Request v)
    (hframe : jsonrpcToFrame v = .ok frame) : Carried v frame ↔ Fits v := by
  constructor
  · intro hcarried
    have hid := hcarried.id_eq (.new .pong frame.header.requestId []) _ rfl
      (by decide : MsgType.pong ∉ notificationTypes) (pong_answers _)
    exact ⟨(id_kept_iff hframe).mp hid.symm,
      (params_carried_iff hrequest hframe).mp hcarried.params_eq⟩
  · intro hfits
    refine ⟨(params_carried_iff hrequest hframe).mpr hfits.ping, ?_⟩
    intro reply value hid htype hvalue
    rw [get_id_of_answer htype hvalue, hid]
    exact ((id_kept_iff hframe).mpr hfits.id_eq).symm

/-- The bridge keeps everything exactly when every id is an unsigned 64-bit integer, no ping has
params, and none of the frames tells of a changed resource. -/
theorem bridged_iff (hrequests : ∀ v ∈ requests, Request v)
    (hframes : ∀ frame ∈ frames, ∃ body, bodyOf frame.payload = .ok body) :
    Bridged requests frames ↔ (∀ v ∈ requests, Fits v) ∧ ∀ frame ∈ frames,
      frame.header.msgType ≠ .resourceUpdated ∧ frame.header.msgType ≠ .resourceListChanged := by
  constructor
  · intro hbridged
    refine ⟨fun v hv => ?_, fun frame hmem => ?_⟩
    · obtain ⟨frame, hframe⟩ := (hrequests v hv).accepted
      exact (carried_iff (hrequests v hv) hframe).mp (hbridged.carried v hv frame hframe)
    · obtain ⟨body, hbody⟩ := hframes frame hmem
      exact (mapped_iff hbody).mp (hbridged.mapped frame hmem body hbody)
  · rintro ⟨hfits, htypes⟩
    have hcarried : ∀ v ∈ requests, ∀ frame, jsonrpcToFrame v = .ok frame → Carried v frame :=
      fun v hv frame hframe => (carried_iff (hrequests v hv) hframe).mpr (hfits v hv)
    refine ⟨hcarried, ?_, fun frame hmem body hbody => (mapped_iff hbody).mpr (htypes frame hmem)⟩
    -- equal request ids come back as equal ids
    intro v hv v' hv' hne frame frame' hframe hframe' heq
    have hid := (id_kept_iff hframe).mpr (hfits v hv).id_eq
    have hid' := (id_kept_iff hframe').mpr (hfits v' hv').id_eq
    exact hne (hid.trans ((congrArg (some ∘ idValue) heq).trans hid'.symm))

end Bridge

omit [Externals] in
def request (method : String) (id params : Value) : Value :=
  .object [("id", id), ("jsonrpc", .string "2.0"), ("method", .string method), ("params", params)]

omit [Externals] in
/-- Externals that print and read the empty object. -/
@[reducible] def emptyObject : Externals where
  __ := Externals.plain
  toVec
    | .value, _ => utf8 "\x7b\x7d"
    | _, _ => []
  fromSlice
    | .value, bytes => if bytes = utf8 "\x7b\x7d" then some (.object []) else none
    | _, _ => none

omit [Externals] in
theorem readsBack_emptyObject : letI : Externals := emptyObject
    ReadsBack (.object []) := by
  let _ : Externals := emptyObject
  exact ⟨if_pos rfl, (by decide +kernel : utf8 "\x7b\x7d" ≠ [])⟩

omit [Externals] in
theorem request_emptyObject {method : String} {id : Value} (hid : IsId id) :
    letI : Externals := emptyObject
    (∃ frame, jsonrpcToFrame (request method id (.object [])) = .ok frame) →
      Request (request method id (.object [])) := by
  let _ : Externals := emptyObject
  intro haccepted
  exact ⟨haccepted, ⟨id, hid, rfl⟩, fun _ => readsBack_emptyObject⟩

omit [Externals] in
/-- Request 7 and its result. -/
theorem bridged_seven : letI : Externals := emptyObject
    Bridged [request "tools/list" (.number (.posInt 7)) (.object [])]
      [.new .listToolsResult 7 (utf8 "\x7b\x7d")] := by
  let _ : Externals := emptyObject
  refine (bridged_iff ?_ ?_).mpr ⟨?_, ?_⟩
  · intro v hv
    rw [List.mem_singleton.mp hv]
    exact request_emptyObject trivial ⟨_, rfl⟩
  · intro frame hframe
    rw [List.mem_singleton.mp hframe]
    exact ⟨.object [], bodyOf_printed fun _ => readsBack_emptyObject⟩
  · intro v hv
    rw [List.mem_singleton.mp hv]
    exact ⟨⟨7, by decide, rfl⟩, fun hping => absurd
      (Value.string.inj (Option.some.inj hping)) (by decide)⟩
  · intro frame hframe
    rw [List.mem_singleton.mp hframe]
    decide

omit [Externals] in
/-- Two ids that are strings become the same request id, and neither comes back. -/
theorem bridge_lossy : letI : Externals := emptyObject
    let left := request "tools/list" (.string "a") (.object [])
    let right := request "tools/list" (.string "b") (.object [])
    Request left ∧ Request right ∧ jsonrpcToFrame left = jsonrpcToFrame right ∧
      ¬ Bridged [left, right] [] := by
  let _ : Externals := emptyObject
  refine ⟨request_emptyObject trivial ⟨_, rfl⟩, request_emptyObject trivial ⟨_, rfl⟩, rfl, ?_⟩
  intro hbridged
  have hne : some (Value.string "a") ≠ some (Value.string "b") := fun heq =>
    absurd (Value.string.inj (Option.some.inj heq)) (by decide)
  exact hbridged.distinct _ List.mem_cons_self _ (List.mem_cons_of_mem _ List.mem_cons_self) hne
    _ _ rfl rfl rfl

end Ohmcp.Rpc
