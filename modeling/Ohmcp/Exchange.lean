import Ohmcp.Negotiation

/-! How far a `connect_shm` has come: the frames each end answers with, and the items that are ahead of
the client at each stage. -/

namespace Ohmcp

variable [Externals]

namespace Negotiation

/-! ### What the server answers -/

section Server

variable {connector : Connector} {env : Environment} {shared : Shared} {session : Session}

/-- The nonce and the tag are all that wrapping adds. -/
theorem length_wrap (hx : Externals.Lossless) (pipeline : PayloadPipeline) (msgType : MsgType)
    (id : UInt64) (payload : Bytes) :
    (pipeline.wrap msgType id payload).1.payload.length ≤ payload.length + 28 := by
  have hdata : (maybeCompress payload).1.length ≤ payload.length := by
    unfold maybeCompress
    dsimp only
    split_ifs
    · exact le_refl _
    · exact le_of_lt ‹_›
    · exact le_refl _
  rw [PayloadPipeline.wrap]
  dsimp only
  rcases hcipher : pipeline.cipher with _ | cipher
  · rw [PayloadPipeline.encryptStage, hcipher]
    exact hdata.trans (Nat.le_add_right _ _)
  · rw [PayloadPipeline.encryptStage, hcipher]
    dsimp only
    rw [SessionCipher.encrypt, List.length_append, SessionCipher.length_nonce, hx.length_encrypt]
    omega

theorem sendable_wrap (hx : Externals.Lossless) (pipeline : PayloadPipeline) (msgType : MsgType)
    (id : UInt64) {payload : Bytes} (hshort : Short payload) :
    (pipeline.wrap msgType id payload).1.WellFormed ∧
      (pipeline.wrap msgType id payload).1.header.flags.shmRef = false :=
  ⟨⟨rfl, (length_wrap hx pipeline msgType id payload).trans hshort⟩,
    (PayloadPipeline.wrap_flags pipeline msgType id payload).2.2.1⟩

omit [Externals] in
theorem sendable_new (msgType : MsgType) (id : UInt64) {payload : Bytes} (hshort : Short payload) :
    (Frame.new msgType id payload).WellFormed ∧
      (Frame.new msgType id payload).header.flags.shmRef = false :=
  ⟨⟨rfl, (Nat.le_add_right _ _).trans hshort⟩, (by decide : FrameFlags.none.shmRef = false)⟩

/-- The server accepts who has its token. -/
theorem handleFrame_auth (hneg : Negotiable connector) {token : Bytes}
    (htoken : connector.token = some token) (hshared : shared.token = some token) :
    handleFrame env shared session
        (authFrame (authParams connector.agentId token connector.nonce connector.eph)) =
      ⟨{ shared with acl := shared.acl.grantAll connector.agentId },
        { session with
          authenticated := true
          agentId := connector.agentId
          pipeline := session.pipeline.enableEncryption
            (sessionKey env.eph (some connector.eph.publicBytes) token (utf8 (hex connector.nonce)))
            env.noncePrefix env.noncePrefix_length },
        [.queue (.new .authResult 0
          (Externals.toVec .authResult (authResult true (some env.eph))))], .next⟩ := by
  have hparse := (hneg.keyExchange token htoken env.eph).parse_authParams
  have haccepted : acceptedAuth shared.token
      (authParams connector.agentId token connector.nonce connector.eph) =
        .ok (some (token, utf8 (hex connector.nonce))) := by
    have hverify : verifyResponse token (utf8 (hex connector.nonce))
        (hmacResponse token (utf8 (hex connector.nonce))).bytes = true := verifyResponse_iff.mpr rfl
    rw [hshared]
    simp only [acceptedAuth, authParams, unhex_hex, Except.map, Option.getD_some, hverify, if_true]
  have hpub : authClientPub (authParams connector.agentId token connector.nonce connector.eph) =
      .ok (some connector.eph.publicBytes) := unhex32_hex _
  rw [handleFrame_authFrame, handleAuth]
  simp only [authFrame, Frame.new, hparse, haccepted, hpub]
  rfl

/-- The reply to `ShmSetup` when everything succeeds. -/
def setupFrame (pipeline : PayloadPipeline) : Frame :=
  (pipeline.wrap .shmSetupResult 0 (Externals.toVec .value (shmSetupResult true))).1

theorem handleFrame_setup (hauth : session.authenticated = true)
    (hsucceeds : succeeds (.handle env) = true) :
    handleFrame env shared session shmSetupFrame =
      ⟨shared, { session with
          pipeline := (session.pipeline.wrap .shmSetupResult 0
            (Externals.toVec .value (shmSetupResult true))).2
          shm := some newRing
          shmUp := some newRing },
        [.flush, .rawByte 1, .rawByte 1, .queue (setupFrame session.pipeline)], .next⟩ := by
  have hresolve : resolveUplink session shmSetupFrame = (.ok shmSetupFrame, session) :=
    resolveUplink_inline session (by decide : FrameFlags.none.shmRef = false)
  simp only [succeeds, Bool.and_eq_true] at hsucceeds
  obtain ⟨⟨⟨⟨hdup, hring⟩, hupRing⟩, hdown⟩, hup⟩ := hsucceeds
  rw [handleFrame_of_ok hresolve]
  simp only [dispatch, shmSetupFrame, Frame.new, hauth, handleShmSetup, hdup, if_true, sendFds,
    hring, hupRing, hdown, hup, Bool.and_self, answer]
  rfl

/-- The reply to `Initialize`. -/
def initializeFrame (pipeline : PayloadPipeline) : Frame :=
  (pipeline.wrap .initializeResult 1 (Externals.toVec .initializeResult initializeResult)).1

theorem handleFrame_initializeRequest {frame resolved : Frame} {ring : Option ShmRing}
    (hauth : session.authenticated = true)
    (hresolve : resolveRef uplinkErrors session.shmUp frame = (.ok resolved, ring))
    (htype : resolved.header.msgType = .initializeRequest) (hid : resolved.header.requestId = 1) :
    handleFrame env shared session frame =
      ⟨shared, { session with
          pipeline := (session.pipeline.wrap .initializeResult 1
            (Externals.toVec .initializeResult initializeResult)).2
          shmUp := ring },
        [.queue (initializeFrame session.pipeline)], .next⟩ := by
  rw [handleFrame, resolveUplink, hresolve]
  simp only [dispatch, htype, hauth, hid, answer]
  rfl

end Server

/-! ### What the client makes of it -/

section ClientSide

variable {connector : Connector} {s : State}

omit [Externals] in
/-- A fresh ring gives back what it takes. -/
theorem readRelease_newRing {data : Bytes} {pos : Nat} (hlen : data.length ≤ maxFrameLen)
    (hwrite : (newRing.tryWrite data).1 = some pos) :
    pos < 2 ^ 64 ∧ ∃ ring, (newRing.tryWrite data).2.readRelease pos data.length =
      (some data, ring) ∧ ring.cap = defaultShmCap := by
  have hcap : newRing.cap = 4 * 1024 * 1024 := rfl
  have hhead : newRing.head = 0 := rfl
  have hmax : maxFrameLen = 64 * 1024 * 1024 := rfl
  have hfits : newRing.CursorFits data.length := by
    rw [ShmRing.CursorFits, Circular.nextFit, hcap, hhead]
    split_ifs <;> omega
  obtain ⟨_, hpos, hcontiguous, _, hlt, hwritten⟩ :=
    ShmRing.tryWrite_some hfits (le_refl 0) hwrite
  have hholds : (newRing.written pos data).Holds ⟨pos, data⟩ :=
    ShmRing.holds_written hpos hcontiguous hlt
  have hread := ShmRing.readRelease_of_holds hholds (by rw [ShmRing.head_written hlt]; exact hlt)
  rw [hwritten]
  exact ⟨by omega, _, hread, rfl⟩

/-- The uplink frame of the `Initialize` request comes through. -/
theorem requestFrame_initializeRequest (hneg : Negotiable connector) (pipeline : PayloadPipeline) :
    ∃ frame resolved pipeline' ring ring', requestFrame pipeline (some newRing) .initializeRequest 1
        (Externals.toVec .initializeParams (initializeParams connector.agentId)) =
          (frame, pipeline', some ring) ∧
      frame.WellFormed ∧ pipeline'.cipherKey = pipeline.cipherKey ∧ ring.cap = defaultShmCap ∧
      resolveRef uplinkErrors (some ring) frame = (.ok resolved, some ring') ∧
      ring'.cap = defaultShmCap ∧ resolved.header.msgType = .initializeRequest ∧
      resolved.header.requestId = 1 := by
  have hshort := hneg.short_params
  set payload := Externals.toVec .initializeParams (initializeParams connector.agentId)
  have hlen : payload.length ≤ maxFrameLen := (Nat.le_add_right _ _).trans hshort
  rcases wrapShm_cases pipeline (some newRing) .initializeRequest 1 payload with
    ⟨ring, offset, hring, _, hwrite, hwrap⟩ | ⟨_, hwrap⟩
  · obtain rfl := Option.some.inj hring
    obtain ⟨hoffset, ring', hread, hcap⟩ := readRelease_newRing hlen hwrite
    have hlt : payload.length < 2 ^ 32 := by
      have hmax : maxFrameLen = 64 * 1024 * 1024 := rfl
      omega
    obtain ⟨resolved, hresolve, htype, hid, _⟩ :=
      Refers.receive pipeline uplinkErrors hoffset hlt
        (refers_shmRefFrame .initializeRequest 1 offset payload) hread 0
    exact ⟨_, resolved, pipeline, _, ring', hwrap, wellFormed_shmRefFrame _ _ _ _, rfl,
      ShmRing.cap_tryWrite newRing payload, hresolve, hcap, htype, hid⟩
  · obtain ⟨hwf, hinline⟩ := sendable_wrap hneg.lossless pipeline .initializeRequest 1 hshort
    exact ⟨_, _, _, newRing, newRing, hwrap, hwf, PayloadPipeline.cipherKey_wrap _, rfl,
      resolveRef_inline hinline, rfl, rfl, rfl⟩

/-- The rings the client maps when the reply is the server's. -/
theorem setupRings_setupFrame (hneg : Negotiable connector) {pipeline sender : PayloadPipeline}
    (hkey : sender.SameKey pipeline) (now : Nat) :
    setupRings pipeline now (setupFrame sender) true true =
      (.ok (some defaultShmCap, some defaultShmCap), pipeline) := by
  have hmap : mapRings (shmSetupResult true) true true =
      (some defaultShmCap, some defaultShmCap) := by decide +kernel
  rw [setupRings, setupFrame, PayloadPipeline.unwrap_wrap hneg.lossless hkey]
  simp only [hneg.parse_setup, hmap]

omit [Externals] in
/-- A frame without a reference is read as it is, and the ring stays as it is. -/
theorem resolveShm_inline (hshm : s.client.shm = s.server.session.shm.map ShmRing.cap) {frame : Frame}
    (hinline : frame.header.flags.shmRef = false) :
    resolveShm (s.client.shm.bind fun _ => s.server.session.shm) frame =
      (.ok frame, s.server.session.shm) := by
  rw [resolveShm, resolveRef_inline hinline, hshm]
  cases s.server.session.shm <;> rfl

/-- A notification is passed over. -/
theorem readInitialize_notice (hshm : s.client.shm = s.server.session.shm.map ShmRing.cap)
    {frame : Frame} (hinline : frame.header.flags.shmRef = false)
    (htype : frame.header.msgType = .resourceListChanged) (moment : Moment) :
    s.readInitialize moment frame = s := by
  have hsession : (if s.client.shm.isSome then s.server.session.shm else s.server.session.shm) =
      s.server.session.shm := by split_ifs <;> rfl
  rw [State.readInitialize, resolveShm_inline hshm hinline]
  simp only [route, htype, hsession]

/-- The reply to `Initialize` ends the connecting. -/
theorem readInitialize_reply (hneg : Negotiable connector)
    (hshm : s.client.shm = s.server.session.shm.map ShmRing.cap) {sender : PayloadPipeline}
    (hkey : sender.SameKey s.client.pipeline) (moment : Moment) :
    s.readInitialize moment (initializeFrame sender) =
      { s with client := { s.client with phase := .done } } := by
  have hsession : (if s.client.shm.isSome then s.server.session.shm else s.server.session.shm) =
      s.server.session.shm := by split_ifs <;> rfl
  have htype : (initializeFrame sender).header.msgType = .initializeResult := rfl
  have hid : (initializeFrame sender).header.requestId = 1 := rfl
  have hunwrap : s.client.pipeline.unwrap moment.now (initializeFrame sender) =
      (.ok (Externals.toVec .initializeResult initializeResult), s.client.pipeline) :=
    PayloadPipeline.unwrap_wrap hneg.lossless hkey moment.now _
  have hfinish : finishInitialize s.client.pipeline moment (initializeFrame sender) =
      (.ok (), s.client.pipeline) := by
    rw [finishInitialize, finishRequest, hunwrap]
    simp only [htype, hneg.parse_initializeResult, reduceCtorEq, if_false]
  have hinline : (initializeFrame sender).header.flags.shmRef = false :=
    (PayloadPipeline.wrap_flags sender .initializeResult 1 _).2.2.1
  rw [State.readInitialize, resolveShm_inline hshm hinline]
  simp only [route, htype, hid, hfinish, hsession, if_true]

end ClientSide

/-! ### The stages of the exchange -/

omit [Externals] in
/-- The rings have not been set up. -/
structure Apart (client : Client) (session : Session) : Prop where
  shm_eq : session.shm = none
  fds_eq : client.fds = []
  setup_eq : client.setup = none

omit [Externals] in
/-- What the client waits for, by the bytes with descriptors that are still ahead. -/
def awaited : Nat → Phase
  | 0 => .setupReply
  | 1 => .upFd
  | _ => .downFd

omit [Externals] in
def IsNotice (frame : Frame) : Prop := frame.header.msgType = .resourceListChanged

/-- How far the exchange has come, and the items that are ahead of the client then. -/
inductive Stage (connector : Connector) (client : Client) (uplink : Bytes) (session : Session) :
    List Live.Item → Prop where
  | authSent (token : Bytes) (htoken : connector.token = some token)
      (hphase : client.phase = .authReply token)
      (huplink : uplink = (authFrame
        (authParams connector.agentId token connector.nonce connector.eph)).encode)
      (hapart : Apart client session) : Stage connector client uplink session []
  | authAnswered (token : Bytes) (reply : Frame) (pipeline : PayloadPipeline)
      (hphase : client.phase = .authReply token) (huplink : uplink = [])
      (hapart : Apart client session) (hauth : session.authenticated = true)
      (hreply : authenticate client.pipeline connector.eph token (utf8 (hex connector.nonce))
        connector.noncePrefix connector.noncePrefix_length reply = .ok pipeline)
      (hkey : pipeline.cipherKey = session.pipeline.cipherKey) :
      Stage connector client uplink session [.frame reply]
  | setupSent (hphase : client.phase = .downFd) (huplink : uplink = shmSetupFrame.encode)
      (hapart : Apart client session) (hauth : session.authenticated = true)
      (hkey : client.pipeline.cipherKey = session.pipeline.cipherKey) :
      Stage connector client uplink session []
  | setupAnswered (raws : Nat) (sender : PayloadPipeline) (notices : List Frame)
      (hphase : client.phase = awaited raws) (hraws : client.fds.length + raws = 2)
      (hdown : raws < 2 → client.down = true) (hup : raws < 1 → client.up = true)
      (huplink : uplink = []) (hauth : session.authenticated = true)
      (hkey : client.pipeline.cipherKey = session.pipeline.cipherKey)
      (hshm : session.shm = some newRing) (hshmUp : session.shmUp = some newRing)
      (hsetup : client.setup = none) (hsender : sender.SameKey client.pipeline)
      (hnotices : ∀ notice ∈ notices, IsNotice notice) :
      Stage connector client uplink session
        (List.replicate raws (.raw 1) ++ (setupFrame sender :: notices).map .frame)
  | initializeSent (frame resolved : Frame) (ring : ShmRing) (notices : List Frame)
      (hphase : client.phase = .initializeReply) (huplink : uplink = frame.encode)
      (hwf : frame.WellFormed) (hauth : session.authenticated = true)
      (hkey : client.pipeline.cipherKey = session.pipeline.cipherKey)
      (hmapped : Mapped client session)
      (hresolve : resolveRef uplinkErrors session.shmUp frame = (.ok resolved, some ring))
      (hcap : session.shmUp.map ShmRing.cap = some ring.cap)
      (htype : resolved.header.msgType = .initializeRequest)
      (hid : resolved.header.requestId = 1) (hnotices : ∀ notice ∈ notices, IsNotice notice) :
      Stage connector client uplink session (notices.map .frame)
  | initializeAnswered (before after : List Frame) (sender : PayloadPipeline)
      (hphase : client.phase = .initializeReply) (huplink : uplink = [])
      (hauth : session.authenticated = true)
      (hkey : client.pipeline.cipherKey = session.pipeline.cipherKey)
      (hmapped : Mapped client session) (hsender : sender.SameKey client.pipeline)
      (hbefore : ∀ notice ∈ before, IsNotice notice) (hafter : ∀ notice ∈ after, IsNotice notice) :
      Stage connector client uplink session
        ((before ++ initializeFrame sender :: after).map .frame)
  | done (notices : List Frame) (hphase : client.phase = .done) (huplink : uplink = [])
      (hauth : session.authenticated = true)
      (hkey : client.pipeline.cipherKey = session.pipeline.cipherKey)
      (hmapped : Mapped client session) (hnotices : ∀ notice ∈ notices, IsNotice notice) :
      Stage connector client uplink session (notices.map .frame)

section Stages

variable {connector : Connector} {client : Client} {uplink : Bytes} {session session' : Session}
  {rest : List Live.Item}

/-- Where the frame reader is at work, only frames are ahead. -/
theorem Stage.frames (h : Stage connector client uplink session rest)
    (hframed : client.phase.framed = true) : ∃ frames : List Frame, rest = frames.map .frame := by
  cases h with
  | authSent => exact ⟨[], rfl⟩
  | authAnswered token reply => exact ⟨[reply], rfl⟩
  | setupSent => exact ⟨[], rfl⟩
  | setupAnswered raws sender notices hphase =>
      match raws with
      | 0 => exact ⟨_, rfl⟩
      | 1 =>
          rw [hphase] at hframed
          cases hframed
      | _ + 2 =>
          rw [hphase] at hframed
          cases hframed
  | initializeSent frame resolved ring notices => exact ⟨notices, rfl⟩
  | initializeAnswered before after sender => exact ⟨_, rfl⟩
  | done notices => exact ⟨notices, rfl⟩

/-- The stage depends on the session's rings and key only. -/
theorem Stage.of_session (h : Stage connector client uplink session rest)
    (hauth : session'.authenticated = session.authenticated) (hshm : session'.shm = session.shm)
    (hshmUp : session'.shmUp = session.shmUp)
    (hkey : session'.pipeline.cipherKey = session.pipeline.cipherKey) :
    Stage connector client uplink session' rest := by
  have hapart' : Apart client session → Apart client session' := fun hapart =>
    ⟨hshm.trans hapart.shm_eq, hapart.fds_eq, hapart.setup_eq⟩
  have hmapped' : Mapped client session → Mapped client session' := fun hmapped =>
    ⟨by rw [hshm]; exact hmapped.shm_eq, by rw [hshmUp]; exact hmapped.shmUp_eq,
      hmapped.fds_length, hmapped.setup⟩
  cases h with
  | authSent token htoken hphase huplink hapart =>
      exact .authSent token htoken hphase huplink (hapart' hapart)
  | authAnswered token reply pipeline hphase huplink hapart hauth₀ hreply hkey₀ =>
      exact .authAnswered token reply pipeline hphase huplink (hapart' hapart)
        (hauth.trans hauth₀) hreply (hkey₀.trans hkey.symm)
  | setupSent hphase huplink hapart hauth₀ hkey₀ =>
      exact .setupSent hphase huplink (hapart' hapart) (hauth.trans hauth₀) (hkey₀.trans hkey.symm)
  | setupAnswered raws sender notices hphase hraws hdown hup huplink hauth₀ hkey₀ hshm₀ hshmUp₀
      hsetup hsender hnotices =>
      exact .setupAnswered raws sender notices hphase hraws hdown hup huplink
        (hauth.trans hauth₀) (hkey₀.trans hkey.symm) (hshm.trans hshm₀) (hshmUp.trans hshmUp₀)
        hsetup hsender hnotices
  | initializeSent frame resolved ring notices hphase huplink hwf hauth₀ hkey₀ hmapped hresolve
      hcap htype hid hnotices =>
      exact .initializeSent frame resolved ring notices hphase huplink hwf (hauth.trans hauth₀)
        (hkey₀.trans hkey.symm) (hmapped' hmapped) (by rw [hshmUp]; exact hresolve)
        (by rw [hshmUp]; exact hcap) htype hid hnotices
  | initializeAnswered before after sender hphase huplink hauth₀ hkey₀ hmapped hsender hbefore
      hafter =>
      exact .initializeAnswered before after sender hphase huplink (hauth.trans hauth₀)
        (hkey₀.trans hkey.symm) (hmapped' hmapped) hsender hbefore hafter
  | done notices hphase huplink hauth₀ hkey₀ hmapped hnotices =>
      exact .done notices hphase huplink (hauth.trans hauth₀) (hkey₀.trans hkey.symm)
        (hmapped' hmapped) hnotices

/-- Once the rings are set up, a notification goes behind everything that is ahead. -/
theorem Stage.notify (h : Stage connector client uplink session rest) (hshm : session.shm ≠ none)
    {notice : Frame} (hnotice : IsNotice notice) :
    Stage connector client uplink session (rest ++ [.frame notice]) := by
  have hsnoc : ∀ {notices : List Frame}, (∀ other ∈ notices, IsNotice other) →
      ∀ other ∈ notices ++ [notice], IsNotice other := by
    intro notices hnotices other hother
    rcases List.mem_append.mp hother with hold | hnew
    · exact hnotices other hold
    · rw [List.mem_singleton.mp hnew]
      exact hnotice
  cases h with
  | authSent token htoken hphase huplink hapart => exact absurd hapart.shm_eq hshm
  | authAnswered token reply pipeline hphase huplink hapart => exact absurd hapart.shm_eq hshm
  | setupSent hphase huplink hapart => exact absurd hapart.shm_eq hshm
  | setupAnswered raws sender notices hphase hraws hdown hup huplink hauth hkey hshm₀ hshmUp hsetup
      hsender hnotices =>
      have hrest : Stage connector client uplink session _ :=
        .setupAnswered raws sender (notices ++ [notice]) hphase hraws hdown hup huplink hauth hkey
          hshm₀ hshmUp hsetup hsender (hsnoc hnotices)
      rw [← List.cons_append, List.map_append, ← List.append_assoc] at hrest
      exact hrest
  | initializeSent frame resolved ring notices hphase huplink hwf hauth hkey hmapped hresolve hcap
      htype hid hnotices =>
      have hrest : Stage connector client uplink session _ :=
        .initializeSent frame resolved ring (notices ++ [notice]) hphase huplink hwf hauth hkey
          hmapped hresolve hcap htype hid (hsnoc hnotices)
      rw [List.map_append] at hrest
      exact hrest
  | initializeAnswered before after sender hphase huplink hauth hkey hmapped hsender hbefore
      hafter =>
      have hrest : Stage connector client uplink session _ :=
        .initializeAnswered before (after ++ [notice]) sender hphase huplink hauth hkey hmapped
          hsender hbefore (hsnoc hafter)
      rw [← List.cons_append, ← List.append_assoc, List.map_append] at hrest
      exact hrest
  | done notices hphase huplink hauth hkey hmapped hnotices =>
      have hrest : Stage connector client uplink session _ :=
        .done (notices ++ [notice]) hphase huplink hauth hkey hmapped (hsnoc hnotices)
      rw [List.map_append] at hrest
      exact hrest

end Stages

end Negotiation

end Ohmcp
