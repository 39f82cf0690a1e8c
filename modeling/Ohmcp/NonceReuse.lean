import Ohmcp.Authenticity
import Ohmcp.KeyAgreement
import Ohmcp.Numbering

/-! Every nonce that the two ends of one session use, over any number of accepted handshakes. A cipher
numbers its own messages; that the ciphers under one key keep apart is left to their four random
bytes. -/

open LittleEndian Transition Numbering

namespace Ohmcp

variable [Externals]

namespace Nonces

open Tamper (Side)

/-! ### What a cipher does -/

omit [Externals] in
/-- The nonce of the `n`-th encryption. -/
def nonceAt (noncePrefix : Bytes) (n : ℕ) : Bytes := noncePrefix ++ toLE 8 (UInt64.ofNat n).toNat

omit [Externals] in
/-- A cipher that encrypts once more. -/
def next (cipher : SessionCipher) : SessionCipher :=
  { cipher with nonceCounter := cipher.nonceCounter + 1 }

omit [Externals] in
/-- The encrypted ones among the frames an end puts out begin with the nonces of its cipher, one
after the other. -/
inductive Takes : Option SessionCipher → List Frame → Option SessionCipher → Prop where
  | nil (cipher : Option SessionCipher) : Takes cipher [] cipher
  | plain {cipher last : Option SessionCipher} {frame : Frame} {frames : List Frame}
      (hplain : frame.header.flags.encrypted = false) (hrest : Takes cipher frames last) :
      Takes cipher (frame :: frames) last
  | sealed {cipher : SessionCipher} {last : Option SessionCipher} {frame : Frame}
      {frames : List Frame} (hsealed : frame.header.flags.encrypted = true)
      (hnonce : frame.payload.take 12 = cipher.nonce) (hrest : Takes (some (next cipher)) frames last) :
      Takes (some cipher) (frame :: frames) last

section Takes

variable {cipher middle last : Option SessionCipher} {frames frames' : List Frame}

omit [Externals] in
theorem Takes.append (h : Takes cipher frames middle) (h' : Takes middle frames' last) :
    Takes cipher (frames ++ frames') last := by
  induction h with
  | nil cipher => exact h'
  | plain hplain _ ih => exact .plain hplain (ih h')
  | sealed hsealed hnonce _ ih => exact .sealed hsealed hnonce (ih h')

theorem takes_encryptStage (pipeline : PayloadPipeline) {flags : FrameFlags}
    (hflags : flags.encrypted = false) (msgType : MsgType) (id : UInt64) (data : Bytes)
    (frame : Frame)
    (hframe : frame.header.flags.encrypted =
      (pipeline.encryptStage flags msgType id data).2.1.encrypted)
    (hpayload : frame.payload = (pipeline.encryptStage flags msgType id data).1) :
    Takes pipeline.cipher [frame] (pipeline.encryptStage flags msgType id data).2.2.cipher := by
  cases hcipher : pipeline.cipher with
  | none =>
      simp only [PayloadPipeline.encryptStage, hcipher] at hframe ⊢
      exact .plain (hframe.trans hflags) (.nil none)
  | some cipher =>
      simp only [PayloadPipeline.encryptStage, hcipher] at hframe hpayload ⊢
      refine .sealed (hframe.trans ?_) ?_ (.nil _)
      · exact FrameFlags.of_bits flags (p := fun f => (f.set FrameFlags.ENCRYPTED).encrypted = true)
          (by decide +kernel)
      · rw [hpayload, SessionCipher.encrypt, List.take_left' (SessionCipher.length_nonce cipher)]

theorem takes_wrap (pipeline : PayloadPipeline) (msgType : MsgType) (id : UInt64) (payload : Bytes) :
    Takes pipeline.cipher [(pipeline.wrap msgType id payload).1]
      (pipeline.wrap msgType id payload).2.cipher := by
  have hplain : (if (maybeCompress payload).2 then FrameFlags.none.set FrameFlags.COMPRESSED
      else FrameFlags.none).encrypted = false := by
    cases (maybeCompress payload).2 <;> rfl
  exact takes_encryptStage pipeline hplain msgType id _ _ rfl rfl

theorem takes_wrapCacheRef (pipeline : PayloadPipeline) (msgType : MsgType) (id : UInt64)
    (key : CacheKey) :
    Takes pipeline.cipher [(pipeline.wrapCacheRef msgType id key).1]
      (pipeline.wrapCacheRef msgType id key).2.cipher :=
  takes_encryptStage pipeline (by decide) msgType id _ _ rfl rfl

omit [Externals] in
theorem encrypted_shmRefFrame (msgType : MsgType) (id : UInt64) (offset : Nat) (len : UInt32) :
    (shmRefFrame msgType id offset len).header.flags.encrypted = false :=
  (by decide : (FrameFlags.none.set FrameFlags.SHM_REF).encrypted = false)

/-- A payload that the ring takes is not encrypted at all. -/
theorem takes_wrapShm (pipeline : PayloadPipeline) (shm : Option ShmRing) (msgType : MsgType)
    (id : UInt64) (payload : Bytes) :
    Takes pipeline.cipher [(wrapShm pipeline shm msgType id payload).1]
      (wrapShm pipeline shm msgType id payload).2.1.cipher := by
  rcases wrapShm_cases pipeline shm msgType id payload with ⟨_, _, _, _, _, hwrap⟩ | ⟨_, hwrap⟩
  · rw [hwrap]
    exact .plain (encrypted_shmRefFrame ..) (.nil _)
  · rw [hwrap]
    exact takes_wrap pipeline msgType id payload

omit [Externals] in
theorem Takes.markCacheable {frame : Frame} (h : Takes cipher [frame] last) :
    Takes cipher [markCacheable frame] last := by
  have hencrypted : (Ohmcp.markCacheable frame).header.flags.encrypted =
      frame.header.flags.encrypted :=
    FrameFlags.of_bits frame.header.flags
      (p := fun f => (f.set FrameFlags.CACHEABLE).encrypted = f.encrypted) (by decide +kernel)
  cases h with
  | plain hplain hrest => exact .plain (hencrypted.trans hplain) hrest
  | sealed hsealed hnonce hrest => exact .sealed (hencrypted.trans hsealed) hnonce hrest

end Takes

/-! ### What the server queues -/

/-- The queued frames take their nonces from the cipher, which moves on with them. -/
def Sends (cipher : Option SessionCipher) (handled : Handled) : Prop :=
  Takes cipher (Conn.queued handled.actions) handled.session.pipeline.cipher

section Handlers

variable {cipher : Option SessionCipher} {env : Environment} {shared : Shared} {session : Session}
  {frame : Frame}

theorem sends_answer (hcipher : session.pipeline.cipher = cipher) (shared : Shared) (id : UInt64)
    (msgType : MsgType) (payload : Bytes) :
    Sends cipher (answer shared session id msgType payload) := by
  subst hcipher
  exact takes_wrap session.pipeline msgType id payload

theorem sends_withParams {schema : Schema} {body : Session → schema.Body → Handled}
    (hbody : ∀ session' params, session'.pipeline.cipher = session.pipeline.cipher →
      Sends session.pipeline.cipher (body session' params)) :
    Sends session.pipeline.cipher (withParams shared session schema env.now frame body) := by
  have hcipher := PayloadPipeline.cipher_unwrap session.pipeline env.now frame
  rcases withParams_cases shared session frame env.now body with ⟨flow, _, _, _, heq⟩ | ⟨params, _, heq⟩
  · rw [heq, Sends, hcipher]
    exact .nil _
  · rw [heq]
    exact hbody _ params hcipher

theorem sends_shmSetup : Sends session.pipeline.cipher (handleShmSetup env shared session frame) := by
  have hcipher : session.pipeline.cipher = session.pipeline.cipher := rfl
  have hanswer := sends_answer hcipher shared frame.header.requestId
    .shmSetupResult (Externals.toVec .value (shmSetupResult
      ((sendFds env).2 && env.ringMade && env.upRingMade)))
  rw [handleShmSetup]
  by_cases hdup : env.dupMade = true
  · rw [if_pos hdup]
    dsimp only [Sends]
    rw [List.cons_append, ← List.singleton_append, Conn.queued_append, Conn.queued_append,
      Conn.queued_map_rawByte]
    by_cases hok : ((sendFds env).2 && env.ringMade && env.upRingMade) = true
    · rw [if_pos hok]
      exact hanswer
    · rw [if_neg hok]
      exact hanswer
  · rw [if_neg hdup]
    exact .nil _

theorem sends_readResource :
    Sends session.pipeline.cipher (handleReadResource env shared session frame) := by
  refine sends_withParams fun session' params hcipher => ?_
  cases shared.registry.readResource params.uri with
  | some contents => exact sends_answer hcipher shared _ _ _
  | none => exact sends_answer hcipher shared _ _ _

theorem sends_getPrompt :
    Sends session.pipeline.cipher (handleGetPrompt env shared session frame) := by
  refine sends_withParams fun session' params hcipher => ?_
  cases shared.registry.getPrompt env.occasion params.name params.arguments with
  | some contents => exact sends_answer hcipher shared _ _ _
  | none => exact sends_answer hcipher shared _ _ _

theorem sends_subscribe :
    Sends session.pipeline.cipher (handleSubscribe env shared session frame) := by
  refine sends_withParams fun session' params hcipher => ?_
  by_cases hmissing : frame.header.msgType = .subscribeResource ∧
      shared.registry.hasResource params.uri = false
  · rw [if_pos hmissing]
    exact sends_answer hcipher shared _ _ _
  · rw [if_neg hmissing, ← hcipher]
    exact takes_wrap session'.pipeline .subscribeResourceResult frame.header.requestId
      (utf8 "\x7b\x7d")

theorem sends_cancel : Sends session.pipeline.cipher (handleCancel env shared session frame) := by
  have hcipher := PayloadPipeline.cipher_unwrap session.pipeline env.now frame
  rcases hunwrap : session.pipeline.unwrap env.now frame with ⟨e | data, pipeline⟩
  · rw [hunwrap] at hcipher
    rw [handleCancel, hunwrap, ← hcipher]
    exact .nil _
  · rw [hunwrap] at hcipher
    rw [handleCancel, hunwrap, ← hcipher]
    dsimp only
    cases Externals.fromSlice .cancelParams data with
    | none => exact .nil _
    | some params => exact .nil _

theorem takes_announce (session : Session) (id : UInt64) (params : CallToolParams) :
    Takes session.pipeline.cipher (Conn.queued (announce session id params).1)
      (announce session id params).2.pipeline.cipher := by
  rw [announce]
  by_cases hwants : wantsProgress params = true
  · rw [if_pos hwants]
    exact takes_wrap session.pipeline .progress id _
  · rw [if_neg hwants]
    exact .nil _

theorem sends_answerFrame (hcipher : session.pipeline.cipher = cipher) (shared : Shared) (id : UInt64)
    (name : String) (outcome : CallAnswer) :
    Sends cipher (answerFrame shared session id name outcome) := by
  subst hcipher
  cases outcome with
  | reference key => exact takes_wrapCacheRef session.pipeline .callToolResult id key
  | full body cacheable =>
      have htakes := takes_wrapShm session.pipeline session.shm .callToolResult id body
      cases cacheable with
      | true => exact htakes.markCacheable
      | false => exact htakes
  | unknown => exact takes_wrap session.pipeline .error id _

theorem sends_performCall (env : Environment) (shared : Shared) (session : Session) (id : UInt64)
    (params : CallToolParams) :
    Sends session.pipeline.cipher (performCall env shared session id params) := by
  cases hgranted : shared.acl.check session.agentId params.name with
  | error e =>
      rw [performCall]
      simp only [hgranted]
      exact sends_answer rfl shared id _ _
  | ok granted =>
      rw [performCall_granted hgranted]
      exact sends_answerFrame (by rfl) _ id params.name _

theorem sends_callTool : Sends session.pipeline.cipher (handleCallTool env shared session frame) := by
  unfold handleCallTool
  dsimp only
  by_cases hcancelled : frame.header.requestId ∈ session.cancelled
  · rw [if_pos hcancelled]
    exact sends_answer (by rfl) shared _ _ _
  · rw [if_neg hcancelled]
    refine sends_withParams fun session' params hcipher => ?_
    rw [← hcipher, Sends, Conn.queued_append]
    exact (takes_announce session' frame.header.requestId params).append
      (sends_performCall env shared _ frame.header.requestId params)

/-- The handler of any frame but an `Auth`. -/
theorem sends_dispatch (htype : frame.header.msgType ≠ .auth) :
    Sends session.pipeline.cipher (dispatch env shared session frame) := by
  cases hauth : session.authenticated with
  | false =>
      rw [dispatch_of_shut hauth htype]
      exact sends_answer rfl shared _ _ _
  | true =>
      cases hmsgType : frame.header.msgType with
      | auth => exact absurd hmsgType htype
      | shmSetup =>
          simp only [dispatch, hmsgType, hauth]
          exact sends_shmSetup
      | readResource =>
          simp only [dispatch, hmsgType, hauth]
          exact sends_readResource
      | getPrompt =>
          simp only [dispatch, hmsgType, hauth]
          exact sends_getPrompt
      | subscribeResource =>
          simp only [dispatch, hmsgType, hauth]
          exact sends_subscribe
      | unsubscribeResource =>
          simp only [dispatch, hmsgType, hauth]
          exact sends_subscribe
      | cancel =>
          simp only [dispatch, hmsgType, hauth]
          exact sends_cancel
      | callTool =>
          simp only [dispatch, hmsgType, hauth]
          exact sends_callTool
      | initializeRequest | listTools | listResources | listPrompts | ping =>
          simp only [dispatch, hmsgType, hauth]
          exact sends_answer rfl shared _ _ _
      | _ =>
          simp only [dispatch, hmsgType, hauth]
          exact .nil _

/-- After an `Auth` that is accepted there is a new cipher; any other leaves the old one. What is queued
is in the clear. -/
theorem handleAuth_cipher (env : Environment) (shared : Shared) (session : Session) (frame : Frame) :
    (∀ queued ∈ Conn.queued (handleAuth env shared session frame).actions,
      queued.header.flags.encrypted = false) ∧
    ((handleAuth env shared session frame).flow ≠ .next ∧
        (handleAuth env shared session frame).session.pipeline.cipher = session.pipeline.cipher ∨
      (handleAuth env shared session frame).flow = .next ∧
        (Externals.fromSlice .authParams frame.payload).isSome ∧
        ∃ key, (handleAuth env shared session frame).session.pipeline.cipher =
          some ⟨key, env.noncePrefix, 0, env.noncePrefix_length⟩) := by
  have hclear : ∀ payload, ∀ queued ∈ [Frame.new .authResult frame.header.requestId payload],
      queued.header.flags.encrypted = false := by
    intro payload queued hqueued
    rw [List.mem_singleton.mp hqueued]
    exact (by decide : FrameFlags.none.encrypted = false)
  have hnone : ∀ queued ∈ ([] : List Frame), queued.header.flags.encrypted = false :=
    fun _ h => absurd h List.not_mem_nil
  have hpanicked : Flow.panicked ≠ .next := by decide
  have hreturned : Flow.returned ≠ .next := by decide
  rcases hparams : Externals.fromSlice .authParams frame.payload with _ | params
  · rw [handleAuth, hparams]
    exact ⟨hnone, .inl ⟨(Flow.failed_ne _).1, rfl⟩⟩
  · rcases haccepted : acceptedAuth shared.token params with e | accepted
    · rw [handleAuth, hparams]
      simp only [haccepted]
      exact ⟨hnone, .inl ⟨hpanicked, rfl⟩⟩
    · rcases hpub : authClientPub params with e | clientPub
      · rw [handleAuth, hparams]
        simp only [haccepted, hpub]
        exact ⟨hnone, .inl ⟨hpanicked, rfl⟩⟩
      · rw [handleAuth, hparams]
        simp only [haccepted, hpub]
        rcases accepted with _ | ⟨token, nonce⟩
        · exact ⟨hclear _, .inl ⟨hreturned, rfl⟩⟩
        · exact ⟨hclear _, .inr ⟨rfl, rfl, _, rfl⟩⟩

omit [Externals] in
theorem takes_of_clear {frames : List Frame}
    (h : ∀ frame ∈ frames, frame.header.flags.encrypted = false) : Takes cipher frames cipher := by
  induction frames with
  | nil => exact .nil cipher
  | cons frame frames ih =>
      obtain ⟨hfirst, hrest⟩ := List.forall_mem_cons.mp h
      exact .plain hfirst (ih hrest)

theorem dispatch_auth (htype : frame.header.msgType = .auth) :
    dispatch env shared session frame = handleAuth env shared session frame := by
  simp only [dispatch, htype]

/-- A frame that is not an accepted `Auth` moves the cipher by what it has encrypted for it. -/
theorem sends_handleFrame
    (hnone : AuthRuns.acceptedParams env shared session frame = none) :
    Sends session.pipeline.cipher (handleFrame env shared session frame) := by
  rcases handleFrame_dispatch env shared session frame with
    ⟨shmUp, e, _, hhandled⟩ | ⟨shmUp, resolved, hresolved, hhandled⟩
  · rw [hhandled]
    exact .nil _
  · by_cases htype : resolved.header.msgType = .auth
    · obtain ⟨hclear, hcipher⟩ := handleAuth_cipher env shared { session with shmUp := shmUp } resolved
      rw [AuthRuns.acceptedParams, hresolved, hhandled, dispatch_auth htype] at hnone
      rw [hhandled, dispatch_auth htype]
      rcases hcipher with ⟨_, hcipher⟩ | ⟨hnext, hparams, _⟩
      · rw [Sends, hcipher]
        exact takes_of_clear hclear
      · simp only [htype, hnext, and_self, if_true] at hnone
        rw [hnone] at hparams
        cases hparams
    · rw [hhandled]
      change Sends ({ session with shmUp := shmUp } : Session).pipeline.cipher _
      exact sends_dispatch htype

/-- An accepted `Auth` replaces the cipher, and nothing is encrypted for it. -/
theorem handleFrame_accepted {params : AuthParams}
    (hsome : AuthRuns.acceptedParams env shared session frame = some params) :
    (∀ queued ∈ Conn.queued (handleFrame env shared session frame).actions,
      queued.header.flags.encrypted = false) ∧
    ∃ key, (handleFrame env shared session frame).session.pipeline.cipher =
      some ⟨key, env.noncePrefix, 0, env.noncePrefix_length⟩ := by
  rcases handleFrame_dispatch env shared session frame with
    ⟨shmUp, e, herror, hhandled⟩ | ⟨shmUp, resolved, hresolved, hhandled⟩
  · rw [AuthRuns.acceptedParams, herror] at hsome
    cases hsome
  · rw [AuthRuns.acceptedParams, hresolved] at hsome
    dsimp only at hsome
    split_ifs at hsome with hauth
    obtain ⟨hclear, hcipher⟩ :=
      handleAuth_cipher env shared { session with shmUp := shmUp } resolved
    rw [hhandled, dispatch_auth hauth.1] at hauth ⊢
    rcases hcipher with ⟨hnext, _⟩ | ⟨_, _, hcipher⟩
    · exact absurd hauth.2 hnext
    · exact ⟨hclear, hcipher⟩

end Handlers

/-! ### The session -/

omit [Externals] in
/-- A cipher as it was created, the how many-th of its end. -/
structure Origin where
  side : Side
  generation : ℕ
  key : Bytes32
  /-- The four bytes that were drawn for it. -/
  noncePrefix : Bytes
  deriving DecidableEq

omit [Externals] in
def originOf (side : Side) (generation : ℕ) (cipher : SessionCipher) : Origin :=
  ⟨side, generation, cipher.key, cipher.noncePrefix⟩

omit [Externals] in
/-- The nonces of the encrypted ones among the frames an end puts out. -/
def shown (origin : Option Origin) (frames : List Frame) : List (Origin × Bytes) :=
  frames.filterMap fun frame =>
    if frame.header.flags.encrypted then origin.map fun origin => (origin, frame.payload.take 12)
    else none

structure State where
  shared : Shared
  session : Session
  flow : Flow
  client : PayloadPipeline
  /-- How many ciphers an end has had. -/
  generation : Side → ℕ
  /-- The nonce of every encryption and the cipher it was made with. -/
  uses : List (Origin × Bytes)

namespace State

omit [Externals] in
def start (shared : Shared) : State := ⟨shared, .new shared.token, .next, .new, fun _ => 0, []⟩

omit [Externals] in
def cipher (s : State) : Side → Option SessionCipher
  | .server => s.session.pipeline.cipher
  | .client => s.client.cipher

omit [Externals] in
def origin (s : State) (side : Side) : Option Origin :=
  (s.cipher side).map (originOf side (s.generation side))

omit [Externals] in
/-- One more cipher at an end. -/
def created (s : State) (side : Side) : Side → ℕ :=
  Function.update s.generation side (s.generation side + 1)

/-- The server handles a frame. -/
def handle (s : State) (env : Environment) (frame : Frame) : State :=
  let handled := handleFrame env s.shared s.session frame
  let accepted := AuthRuns.acceptedParams env s.shared s.session frame
  { s with
    shared := handled.shared
    session := handled.session
    flow := handled.flow
    generation := if accepted.isSome then s.created .server else s.generation
    uses := s.uses ++ shown (s.origin .server) (Conn.queued handled.actions) }

/-- The server takes note of a resource event. -/
def notify (s : State) (event : ResourceEvent) : State :=
  match Conn.notification s.session event with
  | some (frame, pipeline) =>
      { s with
        session := { s.session with pipeline := pipeline }
        uses := s.uses ++ shown (s.origin .server) [frame] }
  | none => s

/-- The client frames a request. -/
def request (s : State) (shmUp : Option ShmRing) (msgType : MsgType) (id : UInt64)
    (payload : Bytes) : State :=
  let (frame, client, _) := requestFrame s.client shmUp msgType id payload
  { s with client := client, uses := s.uses ++ shown (s.origin .client) [frame] }

end State

inductive Op where
  /-- The server handles a frame, whoever made it. -/
  | frame (env : Environment) (frame : Frame)
  | event (event : ResourceEvent)
  /-- The client reads a frame as the answer to its `Auth`. -/
  | authenticate (eph : EphemeralKeyPair) (token nonce noncePrefix : Bytes)
      (hlen : noncePrefix.length = 4) (response : Frame)
  | request (shmUp : Option ShmRing) (msgType : MsgType) (id : UInt64) (payload : Bytes)
  | respond (moment : Moment) (cacheKey : Option CacheKey) (response : Frame)
  /-- The other connections of the server. -/
  | others (registry : ToolRegistry) (cache : ResultCache) (acl : ToolAcl)

def step (s : State) : Op → Option State
  | .frame env frame => if s.flow = .next then some (s.handle env frame) else none
  | .event event => if s.flow = .next then some (s.notify event) else none
  | .authenticate eph token nonce noncePrefix hlen response =>
      match authenticate s.client eph token nonce noncePrefix hlen response with
      | .ok client => some { s with client := client, generation := s.created .client }
      | .error _ => none
  | .request shmUp msgType id payload => some (s.request shmUp msgType id payload)
  | .respond moment cacheKey response =>
      some { s with client := (finishRequest s.client moment cacheKey response).2 }
  | .others registry cache acl =>
      some { s with shared := { s.shared with registry := registry, cache := cache, acl := acl } }

/-- No two encryptions under one key use one nonce. -/
def Unique (uses : List (Origin × Bytes)) : Prop :=
  uses.Pairwise fun first second => first.1.key = second.1.key → first.2 ≠ second.2

/-- The ciphers that encrypt under one key were given different random bytes. -/
def Apart (uses : List (Origin × Bytes)) : Prop :=
  ∀ first ∈ uses, ∀ second ∈ uses, first.1.key = second.1.key →
    first.1.noncePrefix = second.1.noncePrefix → first.1 = second.1

/-! ### Each cipher numbers its messages -/

omit [Externals] in
structure Kept (cipher : Side → Option SessionCipher) (generation : Side → ℕ)
    (uses : List (Origin × Bytes)) : Prop where
  numbered : Numbered (fun origin n => nonceAt origin.noncePrefix n) uses
  /-- The counter is the number of encryptions so far. -/
  counted : ∀ side current, cipher side = some current → current.nonceCounter =
    UInt64.ofNat (drawn (originOf side (generation side) current) uses).length
  past : ∀ entry ∈ uses, entry.1.generation ≤ generation entry.1.side

namespace Kept

variable {cipher : Side → Option SessionCipher} {generation : Side → ℕ} {uses : List (Origin × Bytes)}
  {side : Side}

omit [Externals] in
theorem take (h : Kept cipher generation uses) {current : SessionCipher}
    (hcurrent : cipher side = some current) :
    Kept (Function.update cipher side (some (next current))) generation
      (uses ++ [(originOf side (generation side) current, current.nonce)]) := by
  have hcount := h.counted side current hcurrent
  refine ⟨?_, ?_, ?_⟩
  · have hnonce : current.nonce = nonceAt current.noncePrefix
        (drawn (originOf side (generation side) current) uses).length := by
      rw [SessionCipher.nonce, hcount, nonceAt]
    rw [hnonce]
    exact h.numbered.snoc (originOf side (generation side) current)
  · intro side' current' hcurrent'
    by_cases hside : side' = side
    · subst hside
      rw [Function.update_self] at hcurrent'
      obtain rfl := Option.some.inj hcurrent'
      change current.nonceCounter + 1 = UInt64.ofNat
        (drawn (originOf side' (generation side') current) _).length
      rw [drawn_snoc_self, List.length_append, List.length_singleton, hcount, UInt64.ofNat_add]
      rfl
    · rw [Function.update_of_ne hside] at hcurrent'
      rw [drawn_snoc_of_ne fun heq => hside (congrArg Origin.side heq).symm]
      exact h.counted side' current' hcurrent'
  · intro entry hentry
    rcases List.mem_append.mp hentry with hold | hnew
    · exact h.past entry hold
    · rw [List.mem_singleton.mp hnew]
      exact le_refl _

omit [Externals] in
theorem takes (h : Kept cipher generation uses) {frames : List Frame} {last : Option SessionCipher}
    (htakes : Takes (cipher side) frames last) :
    Kept (Function.update cipher side last) generation
      (uses ++ shown ((cipher side).map (originOf side (generation side))) frames) := by
  generalize hcurrent : cipher side = current at htakes
  induction htakes generalizing cipher uses with
  | nil current =>
      rw [← hcurrent, Function.update_eq_self, shown, List.filterMap_nil, List.append_nil]
      exact h
  | @plain current last frame frames hplain hrest ih =>
      have hshown : shown (current.map (originOf side (generation side))) (frame :: frames) =
          shown (current.map (originOf side (generation side))) frames := by
        simp [shown, hplain]
      rw [hshown]
      exact ih h hcurrent
  | @sealed current last frame frames hsealed hnonce hrest ih =>
      have hshown : shown ((some current).map (originOf side (generation side))) (frame :: frames) =
          (originOf side (generation side) current, current.nonce) ::
            shown ((some (next current)).map (originOf side (generation side))) frames := by
        simp only [shown, List.filterMap_cons, hsealed, if_true, Option.map_some, hnonce]
        rfl
      have hmore := ih (h.take hcurrent) (Function.update_self ..)
      rw [hshown, List.append_cons]
      rwa [Function.update_idem] at hmore

omit [Externals] in
theorem create (h : Kept cipher generation uses) (key : Bytes32) (noncePrefix : Bytes)
    (hlen : noncePrefix.length = 4) :
    Kept (Function.update cipher side (some ⟨key, noncePrefix, 0, hlen⟩))
      (Function.update generation side (generation side + 1)) uses := by
  refine ⟨h.numbered, ?_, ?_⟩
  · intro side' current hcurrent
    by_cases hside : side' = side
    · subst hside
      rw [Function.update_self] at hcurrent
      obtain rfl := Option.some.inj hcurrent
      rw [Function.update_self, drawn_eq_nil]
      · rfl
      · intro entry hentry heq
        have hpast := h.past entry hentry
        rw [heq] at hpast
        exact absurd hpast (Nat.not_succ_le_self _)
    · rw [Function.update_of_ne hside] at hcurrent ⊢
      exact h.counted side' current hcurrent
  · intro entry hentry
    have hpast := h.past entry hentry
    by_cases hside : entry.1.side = side
    · rw [hside, Function.update_self]
      rw [hside] at hpast
      exact Nat.le_succ_of_le hpast
    · rwa [Function.update_of_ne hside]

end Kept

/-! ### Steps and runs -/

def State.Inv (s : State) : Prop := Kept s.cipher s.generation s.uses

theorem cipher_finishRequest (pipeline : PayloadPipeline) (moment : Moment)
    (cacheKey : Option CacheKey) (response : Frame) :
    (finishRequest pipeline moment cacheKey response).2.cipher = pipeline.cipher := by
  have hcipher := PayloadPipeline.cipher_unwrap pipeline moment.now response
  rcases hunwrap : pipeline.unwrap moment.now response with ⟨e | body, after⟩
  · rw [hunwrap] at hcipher
    rw [finishRequest, hunwrap]
    exact hcipher
  · rw [hunwrap] at hcipher
    rw [finishRequest, hunwrap]
    dsimp only
    by_cases herror : response.header.msgType = .error
    · rw [if_pos herror]
      exact hcipher
    · rw [if_neg herror]
      cases cacheKey with
      | none => exact hcipher
      | some key =>
          dsimp only
          split_ifs <;> exact hcipher

/-- The client that goes on has a new cipher. -/
theorem authenticate_ok {pipeline after : PayloadPipeline} {eph : EphemeralKeyPair}
    {token nonce noncePrefix : Bytes} {hlen : noncePrefix.length = 4} {response : Frame}
    (h : authenticate pipeline eph token nonce noncePrefix hlen response = .ok after) :
    ∃ key, after = pipeline.enableEncryption key noncePrefix hlen := by
  unfold authenticate at h
  cases hparse : Externals.fromSlice .authResult response.payload with
  | none =>
      rw [hparse] at h
      cases h
  | some result =>
      rw [hparse] at h
      dsimp only at h
      split_ifs at h
      cases hpub : authServerPub result with
      | error e =>
          rw [hpub] at h
          cases h
      | ok serverPub =>
          rw [hpub] at h
          exact ⟨_, (Except.ok.inj h).symm⟩

omit [Externals] in
/-- The pipeline of one end is another one. -/
theorem cipher_update {s t : State} {side : Side} {last : Option SessionCipher}
    (hside : t.cipher side = last) (hothers : ∀ other, other ≠ side → t.cipher other = s.cipher other) :
    t.cipher = Function.update s.cipher side last := by
  funext other
  by_cases heq : other = side
  · subst heq
    rw [Function.update_self, hside]
  · rw [Function.update_of_ne heq, hothers other heq]

theorem State.Inv.handle {s : State} (h : s.Inv) (env : Environment) (frame : Frame) :
    (s.handle env frame).Inv := by
  have hcipher : (s.handle env frame).cipher = Function.update s.cipher .server
      (handleFrame env s.shared s.session frame).session.pipeline.cipher := by
    refine cipher_update rfl fun other hother => ?_
    cases other with
    | server => exact absurd rfl hother
    | client => rfl
  rw [State.Inv, hcipher]
  cases haccepted : AuthRuns.acceptedParams env s.shared s.session frame with
  | none =>
      have hsends : Takes (s.cipher .server) _ _ := sends_handleFrame haccepted
      have hkept := Kept.takes h hsends
      have hgeneration : (s.handle env frame).generation = s.generation := by
        simp only [State.handle, haccepted, Option.isSome_none, Bool.false_eq_true, if_false]
      rw [hgeneration]
      exact hkept
  | some params =>
      obtain ⟨hclear, key, hkey⟩ := handleFrame_accepted haccepted
      have hgeneration : (s.handle env frame).generation = s.created .server := by
        simp only [State.handle, haccepted, Option.isSome_some, if_true]
      have huses : (s.handle env frame).uses = s.uses := by
        have hnone : shown (s.origin .server)
            (Conn.queued (handleFrame env s.shared s.session frame).actions) = [] := by
          rw [shown, List.filterMap_eq_nil_iff]
          intro queued hqueued
          rw [hclear queued hqueued]
          rfl
        rw [State.handle, hnone, List.append_nil]
      rw [hgeneration, huses, hkey]
      exact h.create key env.noncePrefix env.noncePrefix_length

theorem State.Inv.notify {s : State} (h : s.Inv) (event : ResourceEvent) : (s.notify event).Inv := by
  have hwrapped : ∀ (msgType : MsgType) (payload : Bytes),
      Kept (Function.update s.cipher .server
          (s.session.pipeline.wrap msgType 0 payload).2.cipher) s.generation
        (s.uses ++ shown (s.origin .server) [(s.session.pipeline.wrap msgType 0 payload).1]) :=
    fun msgType payload => Kept.takes h (takes_wrap s.session.pipeline msgType 0 payload)
  have hcipher : ∀ (pipeline : PayloadPipeline) (uses : List (Origin × Bytes)),
      State.cipher { s with session := { s.session with pipeline := pipeline }, uses := uses } =
        Function.update s.cipher .server pipeline.cipher := by
    intro pipeline uses
    refine cipher_update rfl fun other hother => ?_
    cases other with
    | server => exact absurd rfl hother
    | client => rfl
  cases event with
  | updated uri =>
      by_cases hmem : uri ∈ s.session.subscribed
      · rw [State.notify, Conn.notification, if_pos hmem, State.Inv, hcipher]
        exact hwrapped .resourceUpdated _
      · rw [State.notify, Conn.notification, if_neg hmem]
        exact h
  | listChanged =>
      by_cases hauth : s.session.authenticated = true
      · rw [State.notify, Conn.notification, if_pos hauth, State.Inv, hcipher]
        exact hwrapped .resourceListChanged _
      · rw [State.notify, Conn.notification, if_neg hauth]
        exact h

theorem State.Inv.request {s : State} (h : s.Inv) (shmUp : Option ShmRing) (msgType : MsgType)
    (id : UInt64) (payload : Bytes) : (s.request shmUp msgType id payload).Inv := by
  have hcipher : (s.request shmUp msgType id payload).cipher = Function.update s.cipher .client
      (requestFrame s.client shmUp msgType id payload).2.1.cipher := by
    refine cipher_update rfl fun other hother => ?_
    cases other with
    | server => rfl
    | client => exact absurd rfl hother
  rw [State.Inv, hcipher]
  exact Kept.takes h (takes_wrapShm s.client shmUp msgType id payload)

omit [Externals] in
theorem State.Inv.authenticate {s : State} (h : s.Inv) (key : Bytes32) (noncePrefix : Bytes)
    (hlen : noncePrefix.length = 4) :
    State.Inv { s with
      client := s.client.enableEncryption key noncePrefix hlen, generation := s.created .client } := by
  have hcipher : State.cipher { s with
      client := s.client.enableEncryption key noncePrefix hlen, generation := s.created .client } =
        Function.update s.cipher .client (some ⟨key, noncePrefix, 0, hlen⟩) := by
    refine cipher_update rfl fun other hother => ?_
    cases other with
    | server => rfl
    | client => exact absurd rfl hother
  rw [State.Inv, hcipher]
  exact h.create key noncePrefix hlen

/-- What one step keeps. -/
theorem inv_step {s t : State} {op : Op} (h : s.Inv) (hstep : step s op = some t) : t.Inv := by
  cases op with
  | frame env frame =>
      rw [step] at hstep
      split_ifs at hstep
      obtain rfl := Option.some.inj hstep
      exact h.handle env frame
  | event event =>
      rw [step] at hstep
      split_ifs at hstep
      obtain rfl := Option.some.inj hstep
      exact h.notify event
  | authenticate eph token nonce noncePrefix hlen response =>
      rw [step] at hstep
      cases hclient : authenticate s.client eph token nonce noncePrefix hlen response with
      | error e =>
          rw [hclient] at hstep
          cases hstep
      | ok client =>
          rw [hclient] at hstep
          obtain rfl := Option.some.inj hstep
          obtain ⟨key, rfl⟩ := authenticate_ok hclient
          exact h.authenticate key noncePrefix hlen
  | request shmUp msgType id payload =>
      obtain rfl := Option.some.inj hstep
      exact h.request shmUp msgType id payload
  | respond moment cacheKey response =>
      obtain rfl := Option.some.inj hstep
      have hcipher : State.cipher { s with
          client := (finishRequest s.client moment cacheKey response).2 } = s.cipher := by
        funext side
        cases side with
        | server => rfl
        | client => exact cipher_finishRequest s.client moment cacheKey response
      rw [State.Inv, hcipher]
      exact h
  | others registry cache acl =>
      obtain rfl := Option.some.inj hstep
      exact h

theorem inv_run {shared : Shared} {ops : List Op} {s : State}
    (hrun : Run step Free (.start shared) ops s) : s.Inv := by
  refine hrun.invariant (fun _ _ _ hinv _ hstep => inv_step hinv hstep) ?_
  refine ⟨numbered_nil, fun side current hcurrent => ?_, fun _ h => absurd h List.not_mem_nil⟩
  cases side with
  | client => cases hcurrent
  | server => cases hcurrent

omit [Externals] in
/-- Below `2 ^ 64` the counter does not come round. -/
theorem nonceAt_inj {noncePrefix : Bytes} {i j : ℕ} (hi : i < 2 ^ 64) (hj : j < 2 ^ 64)
    (h : nonceAt noncePrefix i = nonceAt noncePrefix j) : i = j := by
  have hcounter := List.append_cancel_left h
  rw [UInt64.toNat_ofNat_of_lt' hi, UInt64.toNat_ofNat_of_lt' hj] at hcounter
  exact toLE_inj_of_lt hi hj hcounter

omit [Externals] in
theorem prefix_eq_of_nonceAt {left right : Bytes} {i j : ℕ} (h : nonceAt left i = nonceAt right j) :
    left = right :=
  (List.append_inj' h (by rw [length_toLE, length_toLE])).1

/-- Over every run, with fewer than `2 ^ 64` encryptions at each end, no nonce is used twice under one
key exactly when no two ciphers that encrypt under one key drew the same four bytes. -/
theorem unique_iff {shared : Shared} {ops : List Op} {s : State}
    (hrun : Run step Free (.start shared) ops s)
    (hfew : ∀ side, s.uses.countP (fun entry => entry.1.side = side) < 2 ^ 64) :
    Unique s.uses ↔ Apart s.uses := by
  have hinv := inv_run hrun
  have hbound : ∀ origin, (drawn origin s.uses).length ≤ 2 ^ 64 := by
    intro origin
    calc
      (drawn origin s.uses).length = s.uses.countP fun entry => entry.1 = origin := by
        rw [drawn, List.length_map, List.countP_eq_length_filter]
      _ ≤ s.uses.countP fun entry => entry.1.side = origin.side := by
        refine List.countP_mono_left fun entry _ heq => ?_
        rw [decide_eq_true_iff] at heq ⊢
        rw [heq]
      _ ≤ 2 ^ 64 := (hfew origin.side).le
  have hiff := hinv.numbered.pairwise_iff Origin.key
    (fun origin i hi j hj => nonceAt_inj hi hj)
    (fun origin other i j heq => by rw [prefix_eq_of_nonceAt heq]) hbound
  have hstart : ∀ origin other : Origin, nonceAt origin.noncePrefix 0 = nonceAt other.noncePrefix 0 ↔
      origin.noncePrefix = other.noncePrefix := by
    intro origin other
    constructor
    · exact prefix_eq_of_nonceAt
    · intro heq
      rw [heq]
  simp only [hstart] at hiff
  exact hiff

/-! ### One handshake -/

section Handshake

omit [Externals]

def answered : Frame :=
  letI : Externals := oneHandshake
  .new .authResult 0 (Externals.toVec .authResult (authResult true (some AuthRuns.environment.eph)))

def sessionKeyOf : Bytes32 :=
  letI : Externals := oneHandshake
  sessionKey AuthRuns.environment.eph (some AuthRuns.clientRun.eph.publicBytes)
    AuthRuns.sharedToken AuthRuns.nonceText

/-- The client's first request after the handshake. -/
def pinged (noncePrefix : Bytes) (hlen : noncePrefix.length = 4) : Frame :=
  letI : Externals := oneHandshake
  (requestFrame (PayloadPipeline.new.enableEncryption sessionKeyOf noncePrefix hlen) none .ping 1 []).1

/-- The client authenticates and pings. The server drew four zeros. -/
def pingOps (noncePrefix : Bytes) (hlen : noncePrefix.length = 4) : List Op := [
  .frame AuthRuns.environment (AuthRuns.authFrame AuthRuns.captured),
  .authenticate AuthRuns.clientRun.eph AuthRuns.sharedToken AuthRuns.nonceText noncePrefix hlen answered,
  .request none .ping 1 [],
  .frame AuthRuns.environment (pinged noncePrefix hlen)]

def clientNonce (noncePrefix : Bytes) : Origin × Bytes :=
  (⟨.client, 1, sessionKeyOf, noncePrefix⟩, nonceAt noncePrefix 0)

def serverNonce : Origin × Bytes :=
  (⟨.server, 1, sessionKeyOf, [0, 0, 0, 0]⟩, nonceAt [0, 0, 0, 0] 0)

theorem uses_of_exec {ops : List Op} {uses : List (Origin × Bytes)}
    (h : letI : Externals := oneHandshake
      (exec step (fun _ _ => true) (.start AuthRuns.withToken) ops).map State.uses = some uses) :
    letI : Externals := oneHandshake
    ∃ s, Run step Free (.start AuthRuns.withToken) ops s ∧ s.uses = uses := by
  let _ : Externals := oneHandshake
  obtain ⟨s, hexec, huses⟩ := Option.map_eq_some_iff.mp h
  exact ⟨s, (run_of_exec hexec).weaken fun _ _ _ => trivial, huses⟩

/-- The client drew other bytes than the server. -/
theorem unique_of_apart :
    letI : Externals := oneHandshake
    ∃ s, Run step Free (.start AuthRuns.withToken) (pingOps [1, 0, 0, 0] rfl) s ∧
      s.uses = [clientNonce [1, 0, 0, 0], serverNonce] ∧ Unique s.uses := by
  let _ : Externals := oneHandshake
  have hexec : (exec step (fun _ _ => true) (.start AuthRuns.withToken)
      (pingOps [1, 0, 0, 0] rfl)).map State.uses = some [clientNonce [1, 0, 0, 0], serverNonce] := by
    decide +kernel
  obtain ⟨s, hrun, huses⟩ := uses_of_exec hexec
  have hfew : ∀ side, s.uses.countP (fun entry => entry.1.side = side) < 2 ^ 64 := by
    intro side
    rw [huses]
    exact lt_of_le_of_lt List.countP_le_length (by decide)
  have hapart : Apart s.uses := by
    rw [huses, Apart]
    decide +kernel
  exact ⟨s, hrun, huses, (unique_iff hrun hfew).mpr hapart⟩

/-- Both ends drew the same bytes: the first message of each has one key and one nonce. -/
theorem nonce_reused :
    letI : Externals := oneHandshake
    Conn.queued (handleFrame AuthRuns.environment AuthRuns.withToken (.new (some AuthRuns.sharedToken))
      (AuthRuns.authFrame AuthRuns.captured)).actions = [answered] ∧
    ∃ s, Run step Free (.start AuthRuns.withToken) (pingOps [0, 0, 0, 0] rfl) s ∧
      s.uses = [clientNonce [0, 0, 0, 0], serverNonce] ∧
      (∀ side, s.uses.countP (fun entry => entry.1.side = side) < 2 ^ 64) ∧ ¬ Unique s.uses := by
  let _ : Externals := oneHandshake
  have hexec : (exec step (fun _ _ => true) (.start AuthRuns.withToken)
      (pingOps [0, 0, 0, 0] rfl)).map State.uses = some [clientNonce [0, 0, 0, 0], serverNonce] := by
    decide +kernel
  obtain ⟨s, hrun, huses⟩ := uses_of_exec hexec
  refine ⟨by decide +kernel, s, hrun, huses, fun side => ?_, ?_⟩
  · rw [huses]
    exact lt_of_le_of_lt List.countP_le_length (by decide)
  · rw [huses]
    intro hunique
    exact (List.pairwise_cons.mp hunique).1 serverNonce List.mem_cons_self rfl rfl

end Handshake

end Nonces

end Ohmcp
