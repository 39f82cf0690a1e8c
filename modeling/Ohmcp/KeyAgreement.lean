import Ohmcp.AuthAgreement
import Ohmcp.Connect
import Ohmcp.Responses

/-! Both ends of an accepted handshake enable encryption under one key, whichever public key the
client sends along, and from then on each opens what the other wraps. -/

namespace Ohmcp

variable [Externals]

/-- X25519 commutes, and `serde_json` reads back the two bodies of the handshake. -/
structure Externals.KeyExchange [Externals] (client server : EphemeralKeyPair)
    (params : AuthParams) : Prop where
  commutes : Externals.diffieHellman client.secret (Externals.publicKey server.secret) =
    Externals.diffieHellman server.secret (Externals.publicKey client.secret)
  parse_authParams :
    Externals.fromSlice .authParams (Externals.toVec .authParams params) = some params
  parse_authResult : ∀ eph ∈ [none, some server], Externals.fromSlice .authResult
    (Externals.toVec .authResult (authResult true eph)) = some (authResult true eph)

/-- What a client may send as its public key: nothing, something that does not decode, or its own. -/
inductive Offers (eph : EphemeralKeyPair) : Option String → Option Bytes32 → Prop where
  | nothing : Offers eph none none
  | rejected (text : String) (h : unhex32 text = .ok none) : Offers eph (some text) none
  | own : Offers eph (some (hex eph.publicBytes.bytes)) (some eph.publicBytes)

theorem authClientPub_of_offers {eph : EphemeralKeyPair} {params : AuthParams}
    {clientPub : Option Bytes32} (hoffers : Offers eph params.ephPub clientPub) :
    authClientPub params = .ok clientPub := by
  rw [authClientPub]
  generalize params.ephPub = field at hoffers
  cases hoffers with
  | nothing => rfl
  | rejected text h => exact h
  | own => exact unhex32_hex _

/-- The two derivations give one key. -/
theorem clientSessionKey_eq {client server : EphemeralKeyPair} {params : AuthParams}
    (hkx : Externals.KeyExchange client server params) {field : Option String}
    {clientPub : Option Bytes32} (hoffers : Offers client field clientPub) (token nonce : Bytes) :
    clientSessionKey client (clientPub.map fun _ => server.publicBytes) token nonce =
      sessionKey server clientPub token nonce := by
  cases hoffers with
  | nothing => rfl
  | rejected text h => rfl
  | own =>
      change client.deriveFsSessionKey server.publicBytes token nonce =
        server.deriveFsSessionKey client.publicBytes token nonce
      rw [EphemeralKeyPair.deriveFsSessionKey, EphemeralKeyPair.deriveFsSessionKey]
      exact congrArg (fun secret : Bytes32 =>
        Externals.hmac token (utf8 "ohmcp-fs" ++ nonce ++ secret.bytes)) hkx.commutes

theorem parse_authResult_offered {client server : EphemeralKeyPair} {params : AuthParams}
    (hkx : Externals.KeyExchange client server params) (clientPub : Option Bytes32) :
    Externals.fromSlice .authResult (Externals.toVec .authResult
      (authResult true (clientPub.map fun _ => server))) =
        some (authResult true (clientPub.map fun _ => server)) := by
  cases clientPub with
  | none => exact hkx.parse_authResult none (by simp)
  | some peer => exact hkx.parse_authResult (some server) (by simp)

theorem authServerPub_offered (server : EphemeralKeyPair) (clientPub : Option Bytes32) :
    authServerPub (authResult true (clientPub.map fun _ => server)) =
      .ok (clientPub.map fun _ => server.publicBytes) := by
  cases clientPub with
  | none => rfl
  | some peer => exact unhex32_hex _

/-- The client that reads the answer enables the server's key. -/
theorem authenticate_authResult {client server : EphemeralKeyPair} {params : AuthParams}
    (hkx : Externals.KeyExchange client server params) {field : Option String}
    {clientPub : Option Bytes32} (hoffers : Offers client field clientPub) (token nonce : Bytes)
    (pipeline : PayloadPipeline) (noncePrefix : Bytes) (hlen : noncePrefix.length = 4) :
    authenticate pipeline client token nonce noncePrefix hlen (.new .authResult 0
      (Externals.toVec .authResult (authResult true (clientPub.map fun _ => server)))) =
        .ok (pipeline.enableEncryption (sessionKey server clientPub token nonce)
          noncePrefix hlen) := by
  have hok : (authResult true (clientPub.map fun _ => server)).ok = true := rfl
  simp only [authenticate, Frame.new, parse_authResult_offered hkx, hok, if_true,
    authServerPub_offered, clientSessionKey_eq hkx hoffers]

/-! ### The server's side -/

section Server

variable {env : Environment} {shared : Shared} {session : Session} {token : Bytes}
  {params : AuthParams} {nonce : String}

/-- The `Auth` of a client comes to its handler as it was sent. -/
theorem handleFrame_authFrame (env : Environment) (shared : Shared) (session : Session)
    (params : AuthParams) :
    handleFrame env shared session (authFrame params) =
      handleAuth env shared session (authFrame params) := by
  have hresolve : resolveUplink session (authFrame params) = (.ok (authFrame params), session) :=
    resolveUplink_inline session (by decide : FrameFlags.none.shmRef = false)
  rw [handleFrame_of_ok hresolve]
  simp only [dispatch, authFrame, Frame.new]

/-- After an `Auth` that is accepted, the session's key is derived from the token and the nonce, and
the answer tells in the clear whether an ephemeral key took part. -/
theorem handleAuth_of_next
    (hparse : Externals.fromSlice .authParams (authFrame params).payload = some params)
    (htoken : shared.token = some token)
    (hnonce : params.nonce = some nonce) {clientPub : Option Bytes32}
    (hpub : authClientPub params = .ok clientPub)
    (hnext : (handleAuth env shared session (authFrame params)).flow = .next) :
    (handleAuth env shared session (authFrame params)).actions =
        [.queue (.new .authResult 0 (Externals.toVec .authResult
          (authResult true (clientPub.map fun _ => env.eph))))] ∧
      (handleAuth env shared session (authFrame params)).session.pipeline =
        session.pipeline.enableEncryption (sessionKey env.eph clientPub token (utf8 nonce))
          env.noncePrefix env.noncePrefix_length := by
  have haccepted : acceptedAuth shared.token params = .ok (some (token, utf8 nonce)) := by
    obtain ⟨accepted, haccepted⟩ := accepted_of_next hparse hnext
    rw [haccepted]
    rw [acceptedAuth.eq_def, htoken, hnonce] at haccepted
    rcases hunhex : unhex params.token with e | response
    · rw [hunhex] at haccepted
      cases haccepted
    · rw [hunhex] at haccepted
      have hsome := Except.ok.inj haccepted
      dsimp only at hsome
      split_ifs at hsome
      rw [hsome]
  refine ⟨?_, ?_⟩
  · rw [handleAuth, hparse]
    simp only [haccepted, hpub]
    cases clientPub with
    | none => rfl
    | some peer => rfl
  · rw [handleAuth, hparse]
    simp only [haccepted, hpub]

end Server

/-! ### The frames that follow -/

/-- What becomes of a pipeline while its end sends and receives. -/
inductive PayloadPipeline.Later (pipeline : PayloadPipeline) : PayloadPipeline → Prop where
  | refl : Later pipeline pipeline
  | wrap {later : PayloadPipeline} (h : Later pipeline later) (msgType : MsgType) (id : UInt64)
      (payload : Bytes) : Later pipeline (later.wrap msgType id payload).2
  | wrapCacheRef {later : PayloadPipeline} (h : Later pipeline later) (msgType : MsgType)
      (id : UInt64) (key : CacheKey) : Later pipeline (later.wrapCacheRef msgType id key).2
  | unwrap {later : PayloadPipeline} (h : Later pipeline later) (now : Nat) (frame : Frame) :
      Later pipeline (later.unwrap now frame).2
  | remember {later : PayloadPipeline} (h : Later pipeline later) (now : Nat)
      (order : List CacheKey) (key : CacheKey) (value : Bytes) :
      Later pipeline (later.remember now order key value)

theorem PayloadPipeline.cipherKey_later {pipeline later : PayloadPipeline}
    (h : pipeline.Later later) : later.cipherKey = pipeline.cipherKey := by
  induction h with
  | refl => rfl
  | wrap _ msgType id payload ih => rw [cipherKey_wrap, ih]
  | wrapCacheRef _ msgType id key ih => rw [cipherKey_wrapCacheRef, ih]
  | unwrap _ now frame ih => rw [cipherKey, cipher_unwrap, ← cipherKey, ih]
  | remember _ now order key value ih => exact ih

/-- **Session key agreement.** A server accepts the `Auth` of a client with the token, whatever
nonce it chose and whichever public key it offered. The answer is in the clear; the client that reads
it enables encryption under the server's key, derived by way of the ephemeral keys exactly when both
public keys are there and decode; and from then on each end opens what the other wraps. -/
theorem handshake_agrees (hx : Externals.Lossless) {client : EphemeralKeyPair} {env : Environment}
    {params : AuthParams} (hkx : Externals.KeyExchange client env.eph params) {shared : Shared}
    {session : Session} {token : Bytes} (htoken : shared.token = some token) {nonce : String}
    (hnonce : params.nonce = some nonce) {clientPub : Option Bytes32}
    (hoffers : Offers client params.ephPub clientPub)
    (haccepts : (handleFrame env shared session (authFrame params)).flow = .next)
    (pipeline : PayloadPipeline) (noncePrefix : Bytes) (hlen : noncePrefix.length = 4) :
    ∃ reply result key after,
      (handleFrame env shared session (authFrame params)).actions = [.queue reply] ∧
      reply.header.flags = .none ∧ reply.header.msgType = .authResult ∧
      Externals.fromSlice .authResult reply.payload = some result ∧ result.ok = true ∧
      authenticate pipeline client token (utf8 nonce) noncePrefix hlen reply = .ok after ∧
      (handleFrame env shared session (authFrame params)).session.pipeline.cipherKey = some key ∧
      after.cipherKey = some key ∧
      key = (match authClientPub params, authServerPub result with
        | .ok (some _), .ok (some serverPub) =>
            client.deriveFsSessionKey serverPub token (utf8 nonce)
        | _, _ => deriveSessionKey token (utf8 nonce)) ∧
      ∀ server' client',
        (handleFrame env shared session (authFrame params)).session.pipeline.Later server' →
        after.Later client' → ∀ msgType id payload now,
          client'.unwrap now (server'.wrap msgType id payload).1 = (.ok payload, client') ∧
          server'.unwrap now (client'.wrap msgType id payload).1 = (.ok payload, server') := by
  have hpub : authClientPub params = .ok clientPub := authClientPub_of_offers hoffers
  rw [handleFrame_authFrame] at haccepts ⊢
  obtain ⟨hactions, hpipeline⟩ := handleAuth_of_next hkx.parse_authParams htoken hnonce hpub haccepts
  let result := authResult true (clientPub.map fun _ => env.eph)
  have hresult := parse_authResult_offered hkx clientPub
  have hserverPub := authServerPub_offered env.eph clientPub
  have hkey := clientSessionKey_eq hkx hoffers token (utf8 nonce)
  have hauthenticate := authenticate_authResult hkx hoffers token (utf8 nonce) pipeline noncePrefix hlen
  refine ⟨_, result, sessionKey env.eph clientPub token (utf8 nonce), _, hactions, rfl, rfl,
    hresult, rfl, hauthenticate, ?_, rfl, ?_, ?_⟩
  · rw [hpipeline]
    rfl
  · rw [hpub, hserverPub]
    cases clientPub with
    | none => rfl
    | some peer => exact hkey.symm
  · intro server' client' hserver hclient msgType id payload now
    have hsame : server'.SameKey client' := by
      rw [PayloadPipeline.SameKey, PayloadPipeline.cipherKey_later hclient,
        PayloadPipeline.cipherKey_later hserver, hpipeline]
      rfl
    exact ⟨PayloadPipeline.unwrap_wrap hx hsame now payload,
      PayloadPipeline.unwrap_wrap hx hsame.symm now payload⟩

/-! ### One handshake -/

omit [Externals] in
/-- The answer that carries the server's public key, and its JSON text. -/
def withServerKey : AuthResult where
  ok := true
  sessionKeyB64 := none
  reason := none
  ephPub := some "ce8d3ad1ccb633ec7b70c17814a5c76ecd029685050d344745ba05870e587d59"

omit [Externals] in
def authResultJson (result : AuthResult) : Bytes :=
  utf8 ("\x7b\"ok\":" ++ toString result.ok ++ AuthRuns.jsonField "eph_pub" result.ephPub ++ "\x7d")

omit [Externals] in
/-- HMAC-SHA256, X25519 and JSON on the inputs of one handshake. -/
@[reducible] def oneHandshake : Externals := { AuthRuns.handshake with
  toVec := fun schema => match schema with
    | .authParams => AuthRuns.authJson
    | .authResult => authResultJson
    | _ => fun _ => []
  fromSlice := fun schema => match schema with
    | .authParams => fun body =>
        if body = AuthRuns.authJson AuthRuns.captured then some AuthRuns.captured else none
    | .authResult => fun body =>
        if body = authResultJson withServerKey then some withServerKey
        else if body = utf8 "\x7b\"ok\":true\x7d" then some ⟨true, none, none, none⟩ else none
    | _ => fun _ => none
  diffieHellman := fun _ _ => AuthRuns.clientSecret }

omit [Externals] in
theorem keyExchange_oneHandshake :
    letI : Externals := oneHandshake
    Externals.KeyExchange AuthRuns.clientRun.eph AuthRuns.environment.eph AuthRuns.captured := by
  let _ : Externals := oneHandshake
  have hkey : authResult true (some AuthRuns.environment.eph) = withServerKey := by
    rw [authResult, withServerKey]
    congr 1
  refine ⟨rfl, if_pos rfl, ?_⟩
  intro eph heph
  rcases List.mem_pair.mp heph with rfl | rfl
  · exact (if_neg (by decide +kernel)).trans (if_pos (by decide +kernel))
  · rw [hkey]
    exact if_pos rfl

omit [Externals] in
/-- The client offers its own key. -/
theorem handshake_agrees_own :
    letI : Externals := oneHandshake
    ∃ key reply, (handleFrame AuthRuns.environment AuthRuns.withToken (.new (some AuthRuns.sharedToken))
        (authFrame AuthRuns.captured)).session.pipeline.cipherKey = some key ∧
      (authenticate .new AuthRuns.clientRun.eph AuthRuns.sharedToken
        (utf8 "00000000000000000000000000000000") [0, 0, 0, 0] rfl reply).toOption.bind
          PayloadPipeline.cipherKey = some key := by
  let _ : Externals := oneHandshake
  have hlossless : Externals.Lossless :=
    @Externals.Lossless.mk oneHandshake
      (@Externals.Lossless.decompress_compress .plain Externals.plain_lossless)
      (@Externals.Lossless.decrypt_encrypt .plain Externals.plain_lossless)
      (@Externals.Lossless.length_encrypt .plain Externals.plain_lossless)
  have hoffers : Offers AuthRuns.clientRun.eph AuthRuns.captured.ephPub
      (some AuthRuns.clientRun.eph.publicBytes) := by
    have hown : AuthRuns.captured.ephPub = some (hex AuthRuns.clientRun.eph.publicBytes.bytes) := by
      decide +kernel
    rw [hown]
    exact .own
  have haccepts : (handleFrame AuthRuns.environment AuthRuns.withToken
      (.new (some AuthRuns.sharedToken)) (authFrame AuthRuns.captured)).flow = .next := by
    decide +kernel
  have htoken : AuthRuns.withToken.token = some AuthRuns.sharedToken := rfl
  have hnonce : AuthRuns.captured.nonce = some "00000000000000000000000000000000" := rfl
  obtain ⟨reply, _, key, after, _, _, _, _, _, hclient, hserver, hafter, _⟩ :=
    @handshake_agrees oneHandshake hlossless AuthRuns.clientRun.eph AuthRuns.environment
      AuthRuns.captured keyExchange_oneHandshake AuthRuns.withToken _ AuthRuns.sharedToken htoken _
      hnonce _ hoffers haccepts .new [0, 0, 0, 0] rfl
  refine ⟨key, reply, hserver, ?_⟩
  rw [hclient]
  exact hafter

end Ohmcp
