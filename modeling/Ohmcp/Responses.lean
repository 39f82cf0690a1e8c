import Ohmcp.Connection

/-! Every request of an authenticated session is answered exactly once, in order, and however the
bytes were cut into reads. -/

namespace Ohmcp

variable [Externals]

/-! ### What a request is owed -/

/-- The result a request leads to. The other types get no answer. -/
def resultType : MsgType → Option MsgType
  | .auth => some .authResult
  | .initializeRequest => some .initializeResult
  | .listTools => some .listToolsResult
  | .listResources => some .listResourcesResult
  | .readResource => some .readResourceResult
  | .listPrompts => some .listPromptsResult
  | .getPrompt => some .getPromptResult
  | .ping => some .pong
  | .subscribeResource => some .subscribeResourceResult
  | .unsubscribeResource => some .subscribeResourceResult
  | .callTool => some .callToolResult
  | _ => none

/-- The terminal frame of a request. -/
def Terminal (request : Frame) (result : MsgType) (frame : Frame) : Prop :=
  frame.header.requestId = request.header.requestId ∧
    (frame.header.msgType = result ∨ frame.header.msgType = .error)

/-- The progress notification of a request. -/
def Notice (request : Frame) (frame : Frame) : Prop :=
  frame.header.requestId = request.header.requestId ∧ frame.header.msgType = .progress

/-- The frames a request is answered with: exactly one terminal frame, after one progress
notification if it is announced; and nothing where no answer is due. -/
def Answers (announced : Prop) (request : Frame) (frames : List Frame) : Prop :=
  match resultType request.header.msgType with
  | none => frames = []
  | some result => ∃ terminal, Terminal request result terminal ∧
      (announced → ∃ notice, Notice request notice ∧ frames = [notice, terminal]) ∧
      (¬ announced → frames = [terminal])

/-- The body of a request decrypts and parses. -/
def Opens (schema : Schema) (now : Nat) (session : Session) (frame : Frame)
    (params : schema.Body) : Prop :=
  ∃ data, (session.pipeline.unwrap now frame).1 = .ok data ∧
    Externals.fromSlice schema data = some params

/-- A call that asks for progress and was not cancelled. -/
def Announced (env : Environment) (session : Session) (frame : Frame) : Prop :=
  frame.header.msgType = .callTool ∧ frame.header.requestId ∉ session.cancelled ∧
    ∃ params, Opens .callToolParams env.now session frame params ∧ wantsProgress params = true

/-- The well-formed frames: a body that is read decrypts and parses, and authentication verifies. -/
def WellBehaved (env : Environment) (shared : Shared) (session : Session) (frame : Frame) : Prop :=
  match frame.header.msgType with
  | .auth => ∃ params accepted clientPub,
      Externals.fromSlice .authParams frame.payload = some params ∧
      acceptedAuth shared.token params = .ok (some accepted) ∧
      authClientPub params = .ok clientPub
  | .shmSetup => False
  | .readResource => ∃ params, Opens .readResourceParams env.now session frame params
  | .getPrompt => ∃ params, Opens .getPromptParams env.now session frame params
  | .subscribeResource => ∃ params, Opens .subscribeResourceParams env.now session frame params
  | .unsubscribeResource => ∃ params, Opens .subscribeResourceParams env.now session frame params
  | .cancel => ∃ params, Opens .cancelParams env.now session frame params
  | .callTool => ∃ params, Opens .callToolParams env.now session frame params
  | _ => True

/-! ### One frame -/

section Handlers

variable {env : Environment} {shared : Shared} {session : Session} {frame : Frame} {id : UInt64}
  {result : MsgType}

/-- A handler that queues one terminal frame and lets the session go on. -/
structure Replied (handled : Handled) (id : UInt64) (result : MsgType) : Prop where
  flow_eq : handled.flow = .next
  authenticated_eq : handled.session.authenticated = true
  queues : ∃ terminal : Frame, handled.actions = [.queue terminal] ∧
    terminal.header.requestId = id ∧
    (terminal.header.msgType = result ∨ terminal.header.msgType = .error)

theorem replied_answer (hauth : session.authenticated = true) (payload : Bytes) :
    Replied (answer shared session id result payload) id result :=
  ⟨rfl, hauth, _, rfl, rfl, .inl rfl⟩

theorem replied_refuse (hauth : session.authenticated = true) (code : Int) (message : String) :
    Replied (refuse shared session id code message) id result :=
  ⟨rfl, hauth, _, rfl, rfl, .inr rfl⟩

/-- A body that opens is handed on, in a session that differs in the pipeline only. -/
theorem withParams_of_opens {schema : Schema} {now : Nat} {params : schema.Body}
    {body : Session → schema.Body → Handled} (hopens : Opens schema now session frame params) :
    withParams shared session schema now frame body =
      body { session with pipeline := (session.pipeline.unwrap now frame).2 } params := by
  obtain ⟨data, hdata, hparams⟩ := hopens
  unfold withParams
  rw [show session.pipeline.unwrap now frame =
    (.ok data, (session.pipeline.unwrap now frame).2) from Prod.ext hdata rfl]
  simp only [hparams]

theorem replied_withParams {schema : Schema} {now : Nat} {params : schema.Body}
    {body : Session → schema.Body → Handled} (hauth : session.authenticated = true)
    (hopens : Opens schema now session frame params)
    (hbody : ∀ session' : Session, session'.authenticated = true →
      Replied (body session' params) id result) :
    Replied (withParams shared session schema now frame body) id result := by
  rw [withParams_of_opens hopens]
  exact hbody _ hauth

theorem replied_readResource (hauth : session.authenticated = true) {params : ReadResourceParams}
    (hopens : Opens .readResourceParams env.now session frame params) :
    Replied (handleReadResource env shared session frame) frame.header.requestId
      .readResourceResult := by
  refine replied_withParams hauth hopens fun session' hauth' => ?_
  split
  · exact replied_answer hauth' _
  · exact replied_refuse hauth' _ _

theorem replied_getPrompt (hauth : session.authenticated = true) {params : GetPromptParams}
    (hopens : Opens .getPromptParams env.now session frame params) :
    Replied (handleGetPrompt env shared session frame) frame.header.requestId
      .getPromptResult := by
  refine replied_withParams hauth hopens fun session' hauth' => ?_
  split
  · exact replied_answer hauth' _
  · exact replied_refuse hauth' _ _

theorem replied_subscribe (hauth : session.authenticated = true)
    {params : SubscribeResourceParams}
    (hopens : Opens .subscribeResourceParams env.now session frame params) :
    Replied (handleSubscribe env shared session frame) frame.header.requestId
      .subscribeResourceResult := by
  unfold handleSubscribe
  dsimp only
  refine replied_withParams hauth hopens fun session' hauth' => ?_
  split
  · exact replied_refuse hauth' _ _
  · exact replied_answer (by exact hauth') _

variable (id) in
/-- Whichever way a result takes, the frame is the result of this request. -/
theorem wrapMaybeShm_header (pipeline : PayloadPipeline) (shm : Option ShmRing) (payload : Bytes) :
    (wrapMaybeShm pipeline shm id payload).1.header.requestId = id ∧
      (wrapMaybeShm pipeline shm id payload).1.header.msgType = .callToolResult := by
  rcases wrapShm_cases pipeline shm .callToolResult id payload with ⟨_, _, _, _, _, hwrap⟩ | ⟨_, hwrap⟩
  · rw [wrapMaybeShm, hwrap]
    exact ⟨rfl, rfl⟩
  · rw [wrapMaybeShm, hwrap]
    exact ⟨rfl, rfl⟩

theorem replied_answerFrame (hauth : session.authenticated = true) (name : String)
    (outcome : CallAnswer) :
    Replied (answerFrame shared session id name outcome) id .callToolResult := by
  cases outcome with
  | reference key => exact ⟨rfl, hauth, _, rfl, rfl, .inl rfl⟩
  | full body cacheable =>
      obtain ⟨hid, htype⟩ := wrapMaybeShm_header id session.pipeline session.shm body
      refine ⟨rfl, hauth, _, rfl, ?_⟩
      cases cacheable with
      | false => exact ⟨hid, .inl htype⟩
      | true => exact ⟨hid, .inl htype⟩
  | unknown => exact replied_refuse hauth _ _

theorem replied_performCall (hauth : session.authenticated = true) (params : CallToolParams) :
    Replied (performCall env shared session id params) id .callToolResult := by
  unfold performCall
  split
  · exact replied_refuse hauth _ _
  · exact replied_answerFrame (by exact hauth) _ _

/-- A handler that queues the answers a frame is owed and lets the session go on. -/
structure Answered (handled : Handled) (announced : Prop) (request : Frame) : Prop where
  flow_eq : handled.flow = .next
  authenticated_eq : handled.session.authenticated = true
  queues : ∃ frames : List Frame, handled.actions = frames.map Action.queue ∧
    Answers announced request frames

omit [Externals] in
theorem Replied.answered {handled : Handled} {announced : Prop}
    (hreplied : Replied handled frame.header.requestId result)
    (hresult : resultType frame.header.msgType = some result) (hsilent : ¬ announced) :
    Answered handled announced frame := by
  obtain ⟨hflow, hauth, terminal, hactions, hid, htype⟩ := hreplied
  refine ⟨hflow, hauth, [terminal], hactions, ?_⟩
  rw [Answers, hresult]
  exact ⟨terminal, ⟨hid, htype⟩, fun h => absurd h hsilent, fun _ => rfl⟩

omit [Externals] in
theorem Replied.answered_after {handled : Handled} {announced : Prop} {notice : Frame}
    (hreplied : Replied handled frame.header.requestId result)
    (hresult : resultType frame.header.msgType = some result) (hannounced : announced)
    (hnotice : Notice frame notice) :
    Answered { handled with actions := [.queue notice] ++ handled.actions } announced frame := by
  obtain ⟨hflow, hauth, terminal, hactions, hid, htype⟩ := hreplied
  refine ⟨hflow, hauth, [notice, terminal], by rw [hactions]; rfl, ?_⟩
  rw [Answers, hresult]
  exact ⟨terminal, ⟨hid, htype⟩, fun _ => ⟨notice, hnotice, rfl⟩, fun h => absurd hannounced h⟩

/-- A tool call: one terminal frame, after the notification if it is announced. -/
theorem answered_callTool (hauth : session.authenticated = true) {params : CallToolParams}
    (hopens : Opens .callToolParams env.now session frame params)
    (htype : frame.header.msgType = .callTool) :
    Answered (handleCallTool env shared session frame) (Announced env session frame) frame := by
  have hresult : resultType frame.header.msgType = some .callToolResult := by rw [htype]; rfl
  unfold handleCallTool
  dsimp only
  by_cases hcancelled : frame.header.requestId ∈ session.cancelled
  · rw [if_pos hcancelled]
    exact (replied_refuse (by exact hauth) _ _).answered hresult fun h => h.2.1 hcancelled
  rw [if_neg hcancelled, withParams_of_opens hopens]
  have hannounced : Announced env session frame ↔ wantsProgress params = true := by
    constructor
    · rintro ⟨_, _, params', ⟨data', hdata', hparams'⟩, hwants⟩
      obtain ⟨data, hdata, hparams⟩ := hopens
      rw [hdata] at hdata'
      cases hdata'
      rw [hparams] at hparams'
      cases hparams'
      exact hwants
    · exact fun hwants => ⟨htype, hcancelled, params, hopens, hwants⟩
  rw [hannounced]
  cases hwants : wantsProgress params with
  | false =>
      simp only [announce, hwants, Bool.false_eq_true, if_false, List.nil_append]
      exact (replied_performCall (by exact hauth) params).answered hresult id
  | true =>
      simp only [announce, hwants, if_true]
      exact (replied_performCall (by exact hauth) params).answered_after hresult trivial ⟨rfl, rfl⟩

theorem answered_auth (hwell : WellBehaved env shared session frame)
    (htype : frame.header.msgType = .auth) :
    Replied (handleAuth env shared session frame) frame.header.requestId .authResult := by
  unfold WellBehaved at hwell
  rw [htype] at hwell
  obtain ⟨params, ⟨token, nonce⟩, clientPub, hparams, haccepted, hpub⟩ := hwell
  simp only [handleAuth, hparams, haccepted, hpub]
  exact ⟨rfl, rfl, _, rfl, rfl, .inl rfl⟩

omit [Externals] in
theorem answered_proceed (hauth : session.authenticated = true) {announced : Prop}
    (hresult : resultType frame.header.msgType = none) :
    Answered (proceed shared session) announced frame :=
  ⟨rfl, hauth, [], rfl, by rw [Answers, hresult]⟩

theorem answered_cancel (hauth : session.authenticated = true) {announced : Prop}
    {params : CancelParams} (hopens : Opens .cancelParams env.now session frame params)
    (hresult : resultType frame.header.msgType = none) :
    Answered (handleCancel env shared session frame) announced frame := by
  obtain ⟨data, hdata, hparams⟩ := hopens
  unfold handleCancel
  rw [show session.pipeline.unwrap env.now frame =
    (.ok data, (session.pipeline.unwrap env.now frame).2) from Prod.ext hdata rfl]
  simp only [hparams]
  exact answered_proceed (by exact hauth) hresult

theorem not_announced (htype : frame.header.msgType ≠ .callTool) : ¬ Announced env session frame :=
  fun h => htype h.1

/-- Each type of request is answered as it is owed. -/
theorem answered_dispatch (hauth : session.authenticated = true)
    (hwell : WellBehaved env shared session frame) :
    Answered (dispatch env shared session frame) (Announced env session frame) frame := by
  have hwell' := hwell
  unfold WellBehaved at hwell
  have hreplied : ∀ {handled : Handled} {result : MsgType},
      resultType frame.header.msgType = some result → frame.header.msgType ≠ .callTool →
      Replied handled frame.header.requestId result →
      Answered handled (Announced env session frame) frame :=
    fun hresult htype h => h.answered hresult (not_announced htype)
  cases htype : frame.header.msgType with
  | auth =>
      simp only [dispatch, htype]
      exact hreplied (by rw [htype]; rfl) (by rw [htype]; nofun) (answered_auth hwell' htype)
  | callTool =>
      rw [htype] at hwell
      obtain ⟨params, hopens⟩ := hwell
      simp only [dispatch, htype, hauth]
      exact answered_callTool hauth hopens htype
  | cancel =>
      rw [htype] at hwell
      obtain ⟨params, hopens⟩ := hwell
      simp only [dispatch, htype, hauth]
      exact answered_cancel hauth hopens (by rw [htype]; rfl)
  | readResource =>
      rw [htype] at hwell
      obtain ⟨params, hopens⟩ := hwell
      simp only [dispatch, htype, hauth]
      exact hreplied (by rw [htype]; rfl) (by rw [htype]; nofun)
        (replied_readResource hauth hopens)
  | getPrompt =>
      rw [htype] at hwell
      obtain ⟨params, hopens⟩ := hwell
      simp only [dispatch, htype, hauth]
      exact hreplied (by rw [htype]; rfl) (by rw [htype]; nofun) (replied_getPrompt hauth hopens)
  | subscribeResource =>
      rw [htype] at hwell
      obtain ⟨params, hopens⟩ := hwell
      simp only [dispatch, htype, hauth]
      exact hreplied (by rw [htype]; rfl) (by rw [htype]; nofun) (replied_subscribe hauth hopens)
  | unsubscribeResource =>
      rw [htype] at hwell
      obtain ⟨params, hopens⟩ := hwell
      simp only [dispatch, htype, hauth]
      exact hreplied (by rw [htype]; rfl) (by rw [htype]; nofun) (replied_subscribe hauth hopens)
  | shmSetup =>
      rw [htype] at hwell
      exact hwell.elim
  | initializeRequest =>
      simp only [dispatch, htype, hauth]
      exact hreplied (by rw [htype]; rfl) (by rw [htype]; nofun) (replied_answer hauth _)
  | listTools =>
      simp only [dispatch, htype, hauth]
      exact hreplied (by rw [htype]; rfl) (by rw [htype]; nofun) (replied_answer hauth _)
  | listResources =>
      simp only [dispatch, htype, hauth]
      exact hreplied (by rw [htype]; rfl) (by rw [htype]; nofun) (replied_answer hauth _)
  | listPrompts =>
      simp only [dispatch, htype, hauth]
      exact hreplied (by rw [htype]; rfl) (by rw [htype]; nofun) (replied_answer hauth _)
  | ping =>
      simp only [dispatch, htype, hauth]
      exact hreplied (by rw [htype]; rfl) (by rw [htype]; nofun) (replied_answer hauth _)
  | _ =>
      simp only [dispatch, htype, hauth]
      exact answered_proceed hauth (by rw [htype]; rfl)

omit [Externals] in
/-- The uplink resolution keeps the header but for the length and the reference flag, and the
session but for the ring. -/
theorem resolveUplink_ok {resolved : Frame} {session' : Session}
    (h : resolveUplink session frame = (.ok resolved, session')) :
    resolved.header.msgType = frame.header.msgType ∧
      resolved.header.requestId = frame.header.requestId ∧
      session' = { session with shmUp := session'.shmUp } := by
  rw [resolveUplink] at h
  obtain ⟨hframe, rfl⟩ := Prod.mk.inj h
  obtain ⟨htype, hid⟩ := resolveRef_header hframe
  exact ⟨htype, hid, rfl⟩

variable (session) in
omit [Externals] in
/-- A frame that carries its payload comes through as it is. -/
theorem resolveUplink_inline (hinline : frame.header.flags.shmRef = false) :
    resolveUplink session frame = (.ok frame, session) := by
  rw [resolveUplink, resolveRef_inline hinline]

/-- A frame that resolves is dispatched. -/
theorem handleFrame_of_ok {resolved : Frame} {session' : Session}
    (h : resolveUplink session frame = (.ok resolved, session')) :
    handleFrame env shared session frame = dispatch env shared session' resolved := by
  rw [handleFrame, h]

end Handlers

/-! ### A tool without arguments -/

omit [Externals] in
/-- The JSON texts of a tool `t` without arguments: both kinds of call, and an empty result. -/
@[reducible] def Externals.oneTool : Externals where
  toVec
    | .value, .null => utf8 "null"
    | .value, _ => utf8
        "\x7b\"_meta\":\x7b\"progress\":true\x7d,\"arguments\":null,\"name\":\"t\"\x7d"
    | .string, name => utf8 ("\"" ++ name ++ "\"")
    | .callToolResult, _ => utf8 "\x7b\"content\":[],\"isError\":false\x7d"
    | _, _ => []
  fromSlice
    | .callToolParams, payload =>
        if payload = utf8 "\x7b\"name\":\"t\",\"arguments\":null\x7d" then
          some ⟨"t", .null, none⟩
        else if payload = utf8
            "\x7b\"_meta\":\x7b\"progress\":true\x7d,\"arguments\":null,\"name\":\"t\"\x7d" then
          some ⟨"t", .null, some (.object [("progress", .bool true)])⟩
        else none
    | _, _ => none
  compress := Externals.plain.compress
  decompress := Externals.plain.decompress
  aeadEncrypt := Externals.plain.aeadEncrypt
  aeadDecrypt := Externals.plain.aeadDecrypt
  sha256 := Externals.plain.sha256
  hmac := Externals.plain.hmac
  publicKey := Externals.plain.publicKey
  diffieHellman := Externals.plain.diffieHellman

omit [Externals] in
theorem Externals.oneTool_lossless : @Externals.Lossless .oneTool :=
  @Externals.Lossless.mk .oneTool
    (@Externals.Lossless.decompress_compress .plain Externals.plain_lossless)
    (@Externals.Lossless.decrypt_encrypt .plain Externals.plain_lossless)
    (@Externals.Lossless.length_encrypt .plain Externals.plain_lossless)

omit [Externals] in
/-- The tool, and everybody may call it. -/
def oneToolServer : Shared where
  registry := ToolRegistry.new.register "t" "" .null true fun _ _ => ⟨[], false⟩
  cache := .new 65536 cacheTtl
  acl := ToolAcl.new.grantAll "anonymous"
  token := none

/-! ### A list of frames -/

namespace Conn

/-- The shared-memory reference of a frame resolves, and the frame is well-formed. -/
def Acceptable (world : World) (core : Core) (frame : Frame) : Prop :=
  ∃ resolved session, resolveUplink core.session frame = (.ok resolved, session) ∧
    WellBehaved (world.env core.turn) (world.others core.turn core.shared) session resolved

/-- The frame asks for progress and is not cancelled. -/
def AsksProgress (world : World) (core : Core) (frame : Frame) : Prop :=
  ∃ resolved session, resolveUplink core.session frame = (.ok resolved, session) ∧
    Announced (world.env core.turn) session resolved

theorem AsksProgress.msgType_eq {world : World} {core : Core} {frame : Frame}
    (h : AsksProgress world core frame) : frame.header.msgType = .callTool := by
  obtain ⟨resolved, session, hresolve, hcall, _⟩ := h
  rw [← (resolveUplink_ok hresolve).1, hcall]

def AllAcceptable (world : World) : Core → List Frame → Prop
  | _, [] => True
  | core, frame :: frames =>
      Acceptable world core frame ∧ AllAcceptable world (core.next world frame) frames

theorem handled_answered {world : World} {core : Core} {frame : Frame}
    (hauth : core.session.authenticated = true) (haccept : Acceptable world core frame) :
    Answered (core.handled world frame) (AsksProgress world core frame) frame := by
  obtain ⟨resolved, session, hresolve, hwell⟩ := haccept
  obtain ⟨htype, hid, hsession⟩ := resolveUplink_ok hresolve
  have hauth' : session.authenticated = true := by
    rw [hsession]
    exact hauth
  have hasks : AsksProgress world core frame ↔ Announced (world.env core.turn) session resolved := by
    constructor
    · rintro ⟨resolved', session', hresolve', hannounced⟩
      rw [hresolve] at hresolve'
      cases hresolve'
      exact hannounced
    · exact fun hannounced => ⟨resolved, session, hresolve, hannounced⟩
  obtain ⟨hflow, hstill, frames, hactions, hanswers⟩ := answered_dispatch hauth' hwell
  rw [Core.handled, handleFrame, hresolve]
  refine ⟨hflow, hstill, frames, hactions, ?_⟩
  unfold Answers Terminal Notice at hanswers ⊢
  rw [hasks, ← htype, ← hid]
  exact hanswers

theorem allQuiet_of_acceptable {world : World} {frames : List Frame} {core : Core}
    (hauth : core.session.authenticated = true) (haccept : AllAcceptable world core frames) :
    AllQuiet world core frames := by
  induction frames generalizing core with
  | nil => trivial
  | cons frame frames ih =>
      obtain ⟨hflow, hstill, queued, hactions, _⟩ := handled_answered hauth haccept.1
      exact ⟨⟨hflow, queued, hactions⟩, ih hstill haccept.2⟩

/-- The replies to a list of frames, one by one. -/
theorem replies_answer {world : World} {frames : List Frame} {core : Core}
    (hauth : core.session.authenticated = true) (haccept : AllAcceptable world core frames) :
    (replies world core frames).length = frames.length ∧
    ∀ i frame, frames[i]? = some frame → ∃ out, (replies world core frames)[i]? = some out ∧
      Answers (AsksProgress world (core.run world (frames.take i)) frame) frame out := by
  induction frames generalizing core with
  | nil => exact ⟨rfl, fun i frame h => by simp at h⟩
  | cons first frames ih =>
      obtain ⟨hflow, hstill, out, hactions, hanswers⟩ := handled_answered hauth haccept.1
      obtain ⟨hlength, hrest⟩ := ih hstill haccept.2
      refine ⟨by rw [replies, List.length_cons, List.length_cons, hlength], ?_⟩
      intro i frame hframe
      cases i with
      | zero =>
          cases hframe
          refine ⟨out, ?_, hanswers⟩
          rw [replies, hactions, queued_map_queue]
          rfl
      | succ i => exact hrest i frame hframe

/-! ### Any cut into reads -/

theorem AllAcceptable.append {world : World} {first later : List Frame} {core : Core}
    (h : AllAcceptable world core (first ++ later)) :
    AllAcceptable world core first ∧ AllAcceptable world (core.run world first) later := by
  induction first generalizing core with
  | nil => exact ⟨trivial, h⟩
  | cons frame first ih =>
      obtain ⟨hfirst, hrest⟩ := h
      obtain ⟨hpart, hlater⟩ := ih hrest
      exact ⟨⟨hfirst, hpart⟩, hlater⟩

theorem replies_append (world : World) (first later : List Frame) (core : Core) :
    replies world core (first ++ later) =
      replies world core first ++ replies world (core.run world first) later := by
  induction first generalizing core with
  | nil => rfl
  | cons frame first ih => exact congrArg (_ :: ·) (ih _)

theorem run_authenticated {world : World} {frames : List Frame} {core : Core}
    (hauth : core.session.authenticated = true) (haccept : AllAcceptable world core frames) :
    (core.run world frames).session.authenticated = true := by
  induction frames generalizing core with
  | nil => exact hauth
  | cons frame frames ih =>
      exact ih (handled_answered hauth haccept.1).authenticated_eq haccept.2

theorem after_after (world : World) (conn : Conn) (first later : List Frame) (mid begun : Bytes) :
    (conn.after world first mid).after world later begun =
      conn.after world (first ++ later) begun := by
  simp only [after, replies_append, List.flatten_append, Frame.encodeAll_append, Core.run,
    List.foldl_append, List.append_nil, List.append_assoc]
  rfl

/-- However the bytes of some frames are cut into reads, the session ends up after these frames. -/
theorem foldl_wake_eq {world : World} {reads : List Bytes} {frames : List Frame} {begun : Bytes}
    {conn : Conn} (hwaits : conn.Waits) (hauth : conn.session.authenticated = true)
    (hwf : ∀ frame ∈ frames, frame.WellFormed) (hbegun : Frame.Incomplete begun)
    (hreads : ∀ chunk ∈ reads, chunk ≠ [])
    (hstream : conn.buf ++ reads.flatten = Frame.encodeAll frames ++ begun)
    (haccept : AllAcceptable world conn.core frames) :
    (reads.map Input.read).foldl (wake world) conn = conn.after world frames begun := by
  induction reads generalizing conn frames with
  | nil =>
      rw [List.flatten_nil, List.append_nil] at hstream
      cases frames with
      | nil =>
          rw [Frame.encodeAll_nil, List.nil_append] at hstream
          simp only [List.map_nil, List.foldl_nil, after, replies, List.flatten_nil,
            Frame.encodeAll_nil, List.append_nil, hwaits.out_eq, ← hstream]
          rw [← hwaits.flow_eq, ← hwaits.out_eq]
          rfl
      | cons frame frames =>
          -- a waiting session has no complete frame in its buffer
          rw [Frame.encodeAll_cons, List.append_assoc] at hstream
          exact absurd hstream (hwaits.begun.ne_encode_append (hwf frame List.mem_cons_self) _)
  | cons chunk reads ih =>
      rw [List.flatten_cons, ← List.append_assoc] at hstream
      obtain ⟨first, later, mid, rfl, hfirst, hlater, hmid⟩ :=
        Frame.exists_split_of_append hwf hbegun hstream
      obtain ⟨hnow, hthen⟩ := haccept.append
      obtain ⟨hwfFirst, hwfLater⟩ := List.forall_mem_append.mp hwf
      obtain ⟨hchunk, hreads⟩ := List.forall_mem_cons.mp hreads
      have hwake : conn.wake world (.read chunk) = conn.after world first mid := by
        simp only [wake, if_pos hwaits.flow_eq, if_neg hchunk]
        exact receive_eq hwfFirst hmid (allQuiet_of_acceptable hauth hnow) hwaits hfirst
      have hwaits' : (conn.after world first mid).Waits := ⟨rfl, rfl, hmid⟩
      rw [List.map_cons, List.foldl_cons, hwake, ih hwaits' (run_authenticated hauth hnow) hwfLater
        hreads hlater hthen, after_after]

/-- **Responses.** However the bytes of well-formed frames are cut into reads, when the session
waits again it has written exactly the replies to them, in order: one terminal frame for each
request, after one notification where progress is asked for, and nothing else. -/
theorem responses_in_order {world : World} {conn : Conn} {frames : List Frame} {begun : Bytes}
    {reads : List Bytes} (hwaits : conn.Waits) (hauth : conn.session.authenticated = true)
    (hwf : ∀ frame ∈ frames, frame.WellFormed) (hbegun : Frame.Incomplete begun)
    (hreads : ∀ chunk ∈ reads, chunk ≠ [])
    (hstream : conn.buf ++ reads.flatten = Frame.encodeAll frames ++ begun)
    (haccept : AllAcceptable world conn.core frames) :
    let final := (reads.map Input.read).foldl (wake world) conn
    final.Waits ∧ final.buf = begun ∧
      final.sent = conn.sent ++ Frame.encodeAll (replies world conn.core frames).flatten ∧
      (replies world conn.core frames).length = frames.length ∧
      ∀ i frame, frames[i]? = some frame → ∃ out, (replies world conn.core frames)[i]? = some out ∧
        Answers (AsksProgress world (conn.core.run world (frames.take i)) frame) frame out := by
  intro final
  have hfinal : final = conn.after world frames begun :=
    foldl_wake_eq hwaits hauth hwf hbegun hreads hstream haccept
  refine ⟨?_, ?_, ?_, replies_answer hauth haccept⟩
  · rw [hfinal]
    exact ⟨rfl, rfl, hbegun⟩
  · rw [hfinal]
    rfl
  · rw [hfinal, after, hwaits.out_eq, List.append_nil]

omit [Externals] in
/-- A call that asks for progress and a ping: one read ends inside the call's body, the next inside
the header of the ping. -/
theorem responses_in_order_progress :
    letI : Externals := .oneTool
    let call : Frame := .new .callTool 1 (utf8
      "\x7b\"_meta\":\x7b\"progress\":true\x7d,\"arguments\":null,\"name\":\"t\"\x7d")
    let ping : Frame := .new .ping 2 []
    let reads := [call.encode.take 30, call.encode.drop 30 ++ ping.encode.take 5,
      ping.encode.drop 5]
    ∃ notice result pong,
      ((reads.map Input.read).foldl (wake .still) (.new oneToolServer)).sent =
        Frame.encodeAll [notice, result, pong] ∧
      Notice call notice ∧ Terminal call .callToolResult result ∧ Terminal ping .pong pong := by
  let _ : Externals := .oneTool
  intro call ping reads
  let conn : Conn := .new oneToolServer
  have hwaits : conn.Waits := ⟨rfl, rfl, Frame.incomplete_nil⟩
  have hstream : conn.buf ++ reads.flatten = Frame.encodeAll [call, ping] ++ [] := by
    decide +kernel
  have hopens : Opens .callToolParams 0 conn.session call
      ⟨"t", .null, some (.object [("progress", .bool true)])⟩ :=
    ⟨call.payload, by decide +kernel, rfl⟩
  have hresolve : resolveUplink conn.session call = (.ok call, conn.session) :=
    resolveUplink_inline _ (by decide)
  have hasks : AsksProgress .still conn.core call :=
    ⟨call, conn.session, hresolve, rfl, Finset.notMem_empty _, _, hopens, rfl⟩
  have haccept : AllAcceptable .still conn.core [call, ping] :=
    ⟨⟨call, conn.session, hresolve, _, hopens⟩,
      ⟨ping, _, resolveUplink_inline _ (by decide), trivial⟩, trivial⟩
  obtain ⟨_, _, hsent, hlength, hanswers⟩ :=
    responses_in_order hwaits rfl (by decide) Frame.incomplete_nil (by decide) hstream haccept
  obtain ⟨first, hfirst, result, hresult, hannounced, _⟩ := hanswers 0 call rfl
  obtain ⟨notice, hnotice, rfl⟩ := hannounced hasks
  obtain ⟨second, hsecond, pong, hpong, _, hsilent⟩ := hanswers 1 ping rfl
  obtain rfl := hsilent fun hping => absurd hping.msgType_eq (by decide)
  have hreplies : replies .still conn.core [call, ping] = [[notice, result], [pong]] := by
    obtain ⟨_, _, hpair⟩ := List.length_eq_two.mp hlength
    rw [hpair] at hfirst hsecond ⊢
    cases hfirst
    cases hsecond
    rfl
  rw [hreplies] at hsent
  exact ⟨notice, result, pong, hsent, hnotice, hresult, hpong⟩

end Conn

end Ohmcp
