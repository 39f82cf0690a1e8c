import Ohmcp.Effects
import Ohmcp.Transition

/-! Any number of connections to one server with a token, clients that hold the token, and an
adversary who gives the connections whatever frames it likes. An accepted `Auth` agrees with the run
of a client on the nonce and on the response to it; nothing ties it to one connection. -/

open Transition

namespace Ohmcp

variable [Externals]

/-! ### What an accepted `Auth` contains -/

theorem acceptedAuth_some {token : Bytes} {params : AuthParams} {accepted : Bytes × Bytes}
    (h : acceptedAuth (some token) params = .ok (some accepted)) :
    ∃ nonce response, params.nonce = some nonce ∧ unhex params.token = .ok (some response) ∧
      response = (hmacResponse token (utf8 nonce)).bytes := by
  unfold acceptedAuth at h
  cases hnonce : params.nonce with
  | none =>
      rw [hnonce] at h
      cases h
  | some nonce =>
      rw [hnonce] at h
      cases hresponse : unhex params.token with
      | error e =>
          rw [hresponse] at h
          cases h
      | ok response =>
          rw [hresponse] at h
          dsimp only [Except.map] at h
          by_cases hverify : verifyResponse token (utf8 nonce) (response.getD []) = true
          · have htag := verifyResponse_iff.mp hverify
            cases response with
            | none =>
                have hlen := (hmacResponse token (utf8 nonce)).length_eq
                rw [← htag] at hlen
                cases hlen
            | some response => exact ⟨nonce, response, rfl, rfl, htag⟩
          · rw [if_neg hverify] at h
            cases h

/-- The session goes on after an `Auth` only if its response verified. -/
theorem accepted_of_next {env : Environment} {shared : Shared} {session : Session} {frame : Frame}
    {params : AuthParams} (hparams : Externals.fromSlice .authParams frame.payload = some params)
    (hnext : (handleAuth env shared session frame).flow = .next) :
    ∃ accepted, acceptedAuth shared.token params = .ok (some accepted) := by
  unfold handleAuth at hnext
  rw [hparams] at hnext
  dsimp only at hnext
  cases haccepted : acceptedAuth shared.token params with
  | error e =>
      rw [haccepted] at hnext
      cases hnext
  | ok accepted =>
      cases accepted with
      | some accepted => exact ⟨accepted, rfl⟩
      | none =>
          rw [haccepted] at hnext
          cases hpub : authClientPub params <;> rw [hpub] at hnext <;> cases hnext

/-! ### The system -/

namespace AuthRuns

/-- What a client draws for one handshake. -/
structure ClientRun where
  agentId : String
  nonce : Bytes
  eph : EphemeralKeyPair
  deriving DecidableEq

namespace ClientRun

def params (run : ClientRun) (token : Bytes) : AuthParams :=
  authParams run.agentId token run.nonce run.eph

def tag (run : ClientRun) (token : Bytes) : Bytes :=
  (hmacResponse token (utf8 (hex run.nonce))).bytes

end ClientRun

structure Acceptance where
  conn : Nat
  params : AuthParams
  /-- The runs of clients up to then. -/
  before : List ClientRun
  deriving DecidableEq

structure State where
  shared : Shared
  session : Nat → Option Session
  issued : List ClientRun
  accepted : List Acceptance

inductive Op where
  /-- A client with the token sends its `Auth`; the adversary sees it. -/
  | issue (run : ClientRun)
  | connect (conn : Nat)
  /-- The adversary lets a connection receive a frame. -/
  | deliver (conn : Nat) (env : Environment) (frame : Frame)
  | update (registry : ToolRegistry)

omit [Externals] in
def init (shared : Shared) : State := ⟨shared, fun _ => none, [], []⟩

/-- The parameters of an `Auth` after which `handle_conn` goes on with the session. -/
def acceptedParams (env : Environment) (shared : Shared) (session : Session) (frame : Frame) :
    Option AuthParams :=
  match (resolveUplink session frame).1 with
  | .error _ => none
  | .ok resolved =>
      if resolved.header.msgType = .auth ∧ (handleFrame env shared session frame).flow = .next then
        Externals.fromSlice .authParams resolved.payload
      else none

def State.deliver (s : State) (conn : Nat) (session : Session) (env : Environment) (frame : Frame) :
    State :=
  let handled := handleFrame env s.shared session frame
  let next := if handled.flow = .next then some handled.session else none
  { s with
    shared := handled.shared
    session := Function.update s.session conn next
    accepted := s.accepted ++
      ((acceptedParams env s.shared session frame).map fun params =>
        ⟨conn, params, s.issued⟩).toList }

def step (s : State) : Op → Option State
  | .issue run => some { s with issued := s.issued ++ [run] }
  | .connect conn =>
      match s.session conn with
      | none => some { s with
          session := Function.update s.session conn (some (.new s.shared.token)) }
      | some _ => none
  | .deliver conn env frame => (s.session conn).map fun session => s.deliver conn session env frame
  | .update registry => some { s with shared := { s.shared with registry := registry } }

/-- The frame carries a response for a nonce. -/
def Presents (session : Session) (frame : Frame) (nonce : String) (response : Bytes) : Prop :=
  ∃ resolved params, (resolveUplink session frame).1 = .ok resolved ∧
    Externals.fromSlice .authParams resolved.payload = some params ∧
    params.nonce = some nonce ∧ unhex params.token = .ok (some response)

/-- The symbolic HMAC. Without the token, the adversary has only the tags it saw; and the nonce it
presents collides with none of those the clients drew. -/
def Symbolic (token : Bytes) (s : State) : Op → Prop
  | .deliver conn _ frame => ∀ session, s.session conn = some session →
      ∀ nonce response, Presents session frame nonce response →
        response = (hmacResponse token (utf8 nonce)).bytes →
          (∃ run ∈ s.issued, run.tag token = response) ∧
          ∀ run ∈ s.issued, run.tag token = response → utf8 (hex run.nonce) = utf8 nonce
  | _ => True

/-! ### Agreement -/

omit [Externals] in
theorem utf8_injective : Function.Injective utf8 := by
  intro left right h
  refine String.toByteArray_inj.mp (ByteArray.ext (Array.toList_inj.mp h))

/-- An accepted `Auth` presents a response that verifies. -/
theorem presents_of_accepted {token : Bytes} {env : Environment} {shared : Shared}
    {session : Session} {frame : Frame} {params : AuthParams} (htoken : shared.token = some token)
    (haccept : acceptedParams env shared session frame = some params) :
    ∃ nonce response, params.nonce = some nonce ∧ unhex params.token = .ok (some response) ∧
      Presents session frame nonce response ∧
      response = (hmacResponse token (utf8 nonce)).bytes := by
  unfold acceptedParams at haccept
  cases hresolve : (resolveUplink session frame).1 with
  | error e =>
      rw [hresolve] at haccept
      cases haccept
  | ok resolved =>
      rw [hresolve] at haccept
      dsimp only at haccept
      by_cases hauth : resolved.header.msgType = .auth ∧
          (handleFrame env shared session frame).flow = .next
      · rw [if_pos hauth] at haccept
        have hnext : (handleAuth env shared (resolveUplink session frame).2 resolved).flow =
            .next := by
          have hhandle : handleFrame env shared session frame =
              dispatch env shared (resolveUplink session frame).2 resolved :=
            handleFrame_of_ok (Prod.ext hresolve rfl)
          have hdispatch := hauth.2
          rw [hhandle, dispatch, hauth.1] at hdispatch
          exact hdispatch
        obtain ⟨accepted, haccepted⟩ := accepted_of_next haccept hnext
        rw [htoken] at haccepted
        obtain ⟨nonce, response, hnonce, hresponse, htag⟩ := acceptedAuth_some haccepted
        exact ⟨nonce, response, hnonce, hresponse,
          ⟨resolved, params, hresolve, haccept, hnonce, hresponse⟩, htag⟩
      · rw [if_neg hauth] at haccept
        cases haccept

/-- The nonce and the response are those of a client run that came before. -/
def Acceptance.Agrees (token : Bytes) (acceptance : Acceptance) : Prop :=
  ∃ run ∈ acceptance.before, acceptance.params.nonce = some (hex run.nonce) ∧
    unhex acceptance.params.token = .ok (some (run.tag token))

structure Invariant (token : Bytes) (s : State) : Prop where
  token_eq : s.shared.token = some token
  agrees : ∀ acceptance ∈ s.accepted, acceptance.Agrees token

theorem invariant_deliver {token : Bytes} {s : State} {conn : Nat} {session : Session}
    {env : Environment} {frame : Frame} (hinv : Invariant token s)
    (hsession : s.session conn = some session)
    (hsymbolic : Symbolic token s (.deliver conn env frame)) :
    Invariant token (s.deliver conn session env frame) := by
  refine ⟨(token_handleFrame ..).trans hinv.token_eq, fun acceptance hmem => ?_⟩
  rcases List.mem_append.mp hmem with hold | hnew
  · exact hinv.agrees acceptance hold
  · obtain ⟨params, haccept, rfl⟩ := Option.map_eq_some_iff.mp (Option.mem_toList.mp hnew)
    obtain ⟨nonce, response, hnonce, hresponse, hpresents, htag⟩ :=
      presents_of_accepted hinv.token_eq haccept
    obtain ⟨⟨run, hrun, hseen⟩, hdistinct⟩ := hsymbolic session hsession nonce response hpresents htag
    have hsame : hex run.nonce = nonce := utf8_injective (hdistinct run hrun hseen)
    refine ⟨run, hrun, ?_, ?_⟩
    · rw [hsame]
      exact hnonce
    · rw [hseen]
      exact hresponse

theorem invariant_step {token : Bytes} {s t : State} {op : Op} (hinv : Invariant token s)
    (hsymbolic : Symbolic token s op) (hstep : step s op = some t) : Invariant token t := by
  cases op with
  | issue run =>
      obtain rfl := Option.some.inj hstep
      exact ⟨hinv.token_eq, hinv.agrees⟩
  | connect conn =>
      rw [step] at hstep
      cases hsession : s.session conn with
      | none =>
          rw [hsession] at hstep
          obtain rfl := Option.some.inj hstep
          exact ⟨hinv.token_eq, hinv.agrees⟩
      | some session =>
          rw [hsession] at hstep
          cases hstep
  | deliver conn env frame =>
      obtain ⟨session, hsession, rfl⟩ := Option.map_eq_some_iff.mp hstep
      exact invariant_deliver hinv hsession hsymbolic
  | update registry =>
      obtain rfl := Option.some.inj hstep
      exact ⟨hinv.token_eq, hinv.agrees⟩

/-- **Main result.** Every `Auth` the server accepts, on whatever connection, carries the nonce of a
client that holds the token and has issued it before, and that client's response. -/
theorem accepted_agrees {token : Bytes} {shared : Shared} (htoken : shared.token = some token)
    {ops : List Op} {s : State} (hrun : Run step (Symbolic token) (init shared) ops s) :
    ∀ acceptance ∈ s.accepted, acceptance.Agrees token :=
  (hrun.invariant (fun _ _ _ hinv hsymbolic hstep => invariant_step hinv hsymbolic hstep)
    ⟨htoken, nofun⟩).agrees

/-! ### What is not agreed on -/

/-- An `Auth` frame, under whatever agent id and public key, with the response of a client run. -/
structure Repeats (token : Bytes) (run : ClientRun) (params : AuthParams) (frame : Frame) :
    Prop where
  inline : frame.header.flags.shmRef = false
  msgType_eq : frame.header.msgType = .auth
  params_eq : Externals.fromSlice .authParams frame.payload = some params
  nonce_eq : params.nonce = some (hex run.nonce)
  response_eq : unhex params.token = .ok (some (run.tag token))
  ephPub_ok : ∃ clientPub, authClientPub params = .ok clientPub

namespace Repeats

variable {token : Bytes} {run : ClientRun} {params : AuthParams} {frame : Frame}

/-- Every connection accepts it. -/
theorem acceptedParams_eq (hframe : Repeats token run params frame) {env : Environment}
    {shared : Shared} {session : Session} (htoken : shared.token = some token) :
    acceptedParams env shared session frame = some params := by
  obtain ⟨clientPub, hpub⟩ := hframe.ephPub_ok
  have hresolve := resolveUplink_inline session hframe.inline
  have haccepted : acceptedAuth shared.token params =
      .ok (some (token, utf8 (hex run.nonce))) := by
    unfold acceptedAuth
    rw [htoken, hframe.nonce_eq, hframe.response_eq]
    exact congrArg Except.ok (if_pos (verifyResponse_iff.mpr rfl))
  have hnext : (handleFrame env shared session frame).flow = .next := by
    rw [handleFrame_of_ok hresolve, dispatch, hframe.msgType_eq]
    show (handleAuth env shared session frame).flow = .next
    unfold handleAuth
    rw [hframe.params_eq]
    dsimp only
    rw [haccepted, hpub]
  unfold acceptedParams
  rw [hresolve]
  exact (if_pos ⟨hframe.msgType_eq, hnext⟩).trans hframe.params_eq

/-- The adversary may present the one response it saw. -/
theorem symbolic (hframe : Repeats token run params frame) {s : State}
    (hissued : s.issued = [run]) (conn : Nat) (env : Environment) :
    Symbolic token s (.deliver conn env frame) := by
  rintro session _ nonce response ⟨resolved, params', hresolve, hparams', hnonce', _⟩ htag
  have hresolved : frame = resolved := by
    rw [resolveUplink_inline session hframe.inline] at hresolve
    exact Except.ok.inj hresolve
  have hsame : params = params' := by
    rw [← hresolved, hframe.params_eq] at hparams'
    exact Option.some.inj hparams'
  have hdrawn : hex run.nonce = nonce := by
    rw [← hsame, hframe.nonce_eq] at hnonce'
    exact Option.some.inj hnonce'
  rw [hissued]
  refine ⟨⟨run, List.mem_singleton_self run, ?_⟩, fun other hother _ => ?_⟩
  · rw [htag, ← hdrawn]
    rfl
  · rw [List.mem_singleton.mp hother, hdrawn]

/-- **Replay.** Any open connection accepts the response once more, with no further run of a
client. -/
theorem run_deliver (hframe : Repeats token run params frame) {s : State} {conn : Nat}
    {session : Session} (htoken : s.shared.token = some token) (hissued : s.issued = [run])
    (hsession : s.session conn = some session) (env : Environment) :
    ∃ t, Run step (Symbolic token) s [.deliver conn env frame] t ∧ t.shared.token = some token ∧
      t.issued = [run] ∧ t.accepted = s.accepted ++ [⟨conn, params, [run]⟩] ∧
      ∀ other, other ≠ conn → t.session other = s.session other := by
  have hstep : step s (.deliver conn env frame) = some (s.deliver conn session env frame) := by
    rw [step, hsession]
    rfl
  refine ⟨s.deliver conn session env frame,
    .cons hstep (hframe.symbolic hissued conn env) (.nil _), (token_handleFrame ..).trans htoken, hissued,
    ?_, fun other hother => Function.update_of_ne hother _ _⟩
  unfold State.deliver
  rw [hframe.acceptedParams_eq htoken, hissued]
  rfl

end Repeats

/-! ### One client, three connections -/

section Replay

omit [Externals]

def ofHex (text : String) : Bytes32 :=
  match unhex32 text with
  | .ok (some key) => key
  | _ => .zeros

def sharedToken : Bytes := utf8 "token"

def captured : AuthParams where
  agentId := "agent"
  token := "47c10746db7462b230156ccfc15d6b030e09f123cd352ccdc901a0e581c207eb"
  nonce := some "00000000000000000000000000000000"
  ephPub := some "a4e09292b651c278b9772c569f5fa9bb13d906b46ab68c9df9dc2b4409f8a209"

/-- The same response under the name and with the public key of the adversary. -/
def forged : AuthParams := { captured with
  agentId := "intruder"
  ephPub := some "5dfedd3b6bd47f6fa28ee15d969d5bb0ea53774d488bdaf9df1c6e0124b3ef22" }

def jsonField (name : String) (value : Option String) : String :=
  value.elim "" fun value => ",\"" ++ name ++ "\":\"" ++ value ++ "\""

def authJson (params : AuthParams) : Bytes :=
  utf8 ("\x7b\"agent_id\":\"" ++ params.agentId ++ "\"" ++ jsonField "token" (some params.token) ++
    jsonField "nonce" params.nonce ++ jsonField "eph_pub" params.ephPub ++ "\x7d")

/-- The ECDH secrets of the server with the client and with the adversary. -/
def clientSecret : Bytes32 :=
  ofHex "2ed76ab549b1e73c031eb49c9448f0798aea81b698279a0c3dc3e49fbfc4b953"

def intruderSecret : Bytes32 :=
  ofHex "7c425a51f6a7f2e60012b0a34dd6511017807708b502ee66a2a247f171fda96c"

def nonceText : Bytes := utf8 "00000000000000000000000000000000"

/-- HMAC-SHA256 under the token: message and tag. -/
def tags : List (Bytes × Bytes32) := [
  (nonceText, ofHex captured.token),
  (utf8 "ohmcp-fs" ++ nonceText ++ clientSecret.bytes,
    ofHex "c971ec84ebf224917bfded923bd6ddb4aaf89f08059d1330ea2dbb12248381ae"),
  (utf8 "ohmcp-fs" ++ nonceText ++ intruderSecret.bytes,
    ofHex "08f59d0af7bf8b9f8822e074333a927dad4b2791215a32d46526ee1ecf942c6b")]

/-- HMAC-SHA256, X25519 and JSON on the inputs of this handshake. -/
@[reducible] def handshake : Externals := { Externals.plain with
  toVec := fun schema => match schema with
    | .authParams => authJson
    | _ => fun _ => []
  fromSlice := fun schema => match schema with
    | .authParams => fun body => [captured, forged].find? fun params => authJson params = body
    | _ => fun _ => none
  hmac := fun _ message => (tags.lookup message).getD .zeros
  publicKey := fun secret =>
    if secret.bytes = List.replicate 32 1 then ofHex (captured.ephPub.getD "")
    else ofHex "ce8d3ad1ccb633ec7b70c17814a5c76ecd029685050d344745ba05870e587d59"
  diffieHellman := fun _ peer =>
    if peer = ofHex (captured.ephPub.getD "") then clientSecret else intruderSecret }

def clientRun : ClientRun := ⟨"agent", List.replicate 16 0, ⟨⟨List.replicate 32 1, rfl⟩⟩⟩

theorem params_clientRun :
    letI : Externals := handshake
    clientRun.params sharedToken = captured := by
  decide +kernel

def authFrame (params : AuthParams) : Frame := .new .auth 0 (authJson params)

theorem length_prefix : (List.replicate 4 (0 : UInt8)).length = 4 := rfl

def environment : Environment where
  now := 0
  putNow := 0
  occasion := 0
  order := []
  eph := ⟨⟨List.replicate 32 2, rfl⟩⟩
  noncePrefix := List.replicate 4 0
  noncePrefix_length := length_prefix
  ringMade := true
  upRingMade := true
  dupMade := true
  downFdSent := true
  upFdSent := true
  declineSent := true

def withToken : Shared := ⟨.new, .new 65536 cacheTtl, .new, some sharedToken⟩

theorem repeats_authFrame (params : AuthParams) (hparams : params ∈ [captured, forged]) :
    letI : Externals := handshake
    Repeats sharedToken clientRun params (authFrame params) := by
  let _ : Externals := handshake
  rcases List.mem_pair.mp hparams with rfl | rfl
  · refine ⟨rfl, rfl, ?_, ?_, ?_, some (ofHex (captured.ephPub.getD "")), ?_⟩ <;> decide +kernel
  · refine ⟨rfl, rfl, ?_, ?_, ?_, some (ofHex (forged.ephPub.getD "")), ?_⟩ <;> decide +kernel

def replayOps : List Op :=
  [.issue clientRun, .connect 0, .connect 1, .connect 2] ++
    ([.deliver 0 environment (authFrame captured)] ++
      ([.deliver 1 environment (authFrame captured)] ++
        [.deliver 2 environment (authFrame forged)]))

theorem connected :
    letI : Externals := handshake
    ∃ s, Run step (Symbolic sharedToken) (init withToken)
        [.issue clientRun, .connect 0, .connect 1, .connect 2] s ∧
      s.shared.token = some sharedToken ∧ s.issued = [clientRun] ∧ s.accepted = [] ∧
      s.session 0 = some (.new (some sharedToken)) ∧
      s.session 1 = some (.new (some sharedToken)) ∧
      s.session 2 = some (.new (some sharedToken)) := by
  let _ : Externals := handshake
  exact ⟨_, .cons rfl trivial (.cons rfl trivial (.cons rfl trivial (.cons rfl trivial (.nil _)))),
    rfl, rfl, rfl, rfl, rfl, rfl⟩

/-- The first of the three runs its course. -/
theorem accepted_agrees_first :
    letI : Externals := handshake
    ∃ s : State, s.accepted.length = 1 ∧ ∀ acceptance ∈ s.accepted, acceptance.Agrees sharedToken := by
  let _ : Externals := handshake
  have hcaptured := repeats_authFrame captured (by simp)
  obtain ⟨s, hopen, htoken, hissued, haccepted, hsession⟩ := connected
  obtain ⟨t, hrun, _, _, haccepted', _⟩ := hcaptured.run_deliver htoken hissued hsession.1 environment
  refine ⟨t, ?_, accepted_agrees rfl (hopen.append hrun)⟩
  rw [haccepted', haccepted]
  rfl

/-- The client's `Auth` reaches the server three times, the last time under another agent id and with
another public key. All three are accepted. -/
theorem replay_accepted :
    letI : Externals := handshake
    clientRun.params sharedToken = captured ∧ forged.agentId ≠ captured.agentId ∧
      forged.ephPub ≠ captured.ephPub ∧
      ∃ s, Run step (Symbolic sharedToken) (init withToken) replayOps s ∧ s.issued = [clientRun] ∧
        s.accepted = [⟨0, captured, [clientRun]⟩, ⟨1, captured, [clientRun]⟩,
          ⟨2, forged, [clientRun]⟩] := by
  let _ : Externals := handshake
  have hcaptured := repeats_authFrame captured (by simp)
  have hforged := repeats_authFrame forged (by simp)
  obtain ⟨s, hopen, htoken, hissued, haccepted, hsession⟩ := connected
  obtain ⟨s₀, hrun₀, htoken₀, hissued₀, haccepted₀, hother₀⟩ :=
    hcaptured.run_deliver htoken hissued hsession.1 environment
  obtain ⟨s₁, hrun₁, htoken₁, hissued₁, haccepted₁, hother₁⟩ :=
    hcaptured.run_deliver htoken₀ hissued₀ ((hother₀ 1 (by decide)).trans hsession.2.1) environment
  obtain ⟨s₂, hrun₂, _, hissued₂, haccepted₂, _⟩ :=
    hforged.run_deliver htoken₁ hissued₁
      (((hother₁ 2 (by decide)).trans (hother₀ 2 (by decide))).trans hsession.2.2) environment
  refine ⟨params_clientRun, by decide, by decide, s₂,
    hopen.append (hrun₀.append (hrun₁.append hrun₂)), hissued₂, ?_⟩
  rw [haccepted₂, haccepted₁, haccepted₀, haccepted]
  rfl

end Replay

end AuthRuns

end Ohmcp
