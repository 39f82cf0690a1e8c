import Ohmcp.Exchange

/-! Every step of a `connect_shm`, on either side, leads from one stage of the exchange to the same or
to the next. -/

namespace Ohmcp

variable [Externals]

namespace Negotiation

/-! ### The invariant -/

structure Inv (connector : Connector) (s : State) : Prop where
  token_eq : s.server.shared.token = connector.token
  subscribed_eq : s.server.session.subscribed = ∅
  exchange : ∃ rest, Link s rest ∧
    Stage connector s.client s.uplink s.server.session rest
  setup_mem : ∀ reply, s.client.setup = some reply → .frame reply ∈ s.outgoing

section Steps

variable {connector : Connector} {s t : State}

theorem inv_start {shared : Shared} (htoken : shared.token = connector.token)
    (past pending : List ResourceEvent) : Inv connector (.start connector shared past pending) := by
  have hlink : Link (.start connector shared past pending) [] := by
    refine ⟨rfl, Nat.zero_le _, rfl, List.nil_suffix, fun _ => rfl, rfl, ?_, fun _ => rfl⟩
    exact fun _ h => absurd h List.not_mem_nil
  refine ⟨htoken, rfl, ⟨[], hlink, ?_⟩, (by rintro _ ⟨⟩)⟩
  rcases hconnector : connector.token with _ | token
  · refine .setupSent ?_ ?_ ⟨rfl, rfl, rfl⟩ ?_ rfl
    · simp only [State.start, hconnector]
    · simp only [State.start, hconnector]
    · change shared.token.isNone = true
      rw [htoken, hconnector]
      rfl
  · refine .authSent token hconnector ?_ ?_ ⟨rfl, rfl, rfl⟩
    · simp only [State.start, hconnector]
    · simp only [State.start, hconnector]

omit [Externals] in
theorem outgoing_dry (s : State) :
    { s with server := { s.server.flush with waiting := true } }.outgoing = s.outgoing :=
  List.append_nil _

/-- A step that leaves the session, the stream and the client alone. -/
theorem Inv.of_same (h : Inv connector s) (hclient : t.client = s.client)
    (huplink : t.uplink = s.uplink) (hbuf : t.buf = s.buf) (htaken : t.taken = s.taken)
    (htoken : t.server.shared.token = s.server.shared.token)
    (hsession : t.server.session = s.server.session) (hflow : t.server.flow = s.server.flow)
    (hwire : t.server.wire = s.server.wire) (hqueued : t.server.queued = s.server.queued)
    (hwaiting : t.server.waiting = s.server.waiting) : Inv connector t := by
  obtain ⟨htoken₀, hsubscribed, ⟨rest, hlink, hstage⟩, hsetup⟩ := h
  have hraw : t.client.phase = .downFd ∨ t.client.phase = .upFd → t.buf = [] := by
    rw [hclient, hbuf]
    exact hlink.raw
  refine ⟨htoken.trans htoken₀, by rw [hsession]; exact hsubscribed, ⟨rest, ?_, ?_⟩, ?_⟩
  · exact hlink.of_same htaken hbuf (by rw [hclient]) (hflow.trans hlink.flow) hwire hqueued hwaiting
      hraw
  · rw [hclient, huplink, hsession]
    exact hstage
  · rw [hclient, State.outgoing, hwire, hqueued]
    exact hsetup

/-- A change of the list is pushed only behind the reply to `ShmSetup`. -/
theorem inv_poll (hneg : Negotiable connector) (h : Inv connector s) (htimely : ¬ Premature s) :
    Inv connector { s with server := s.server.poll } := by
  rcases s.server.poll_cases with ⟨heq, _⟩ | ⟨index, event, events, frame, pipeline, hrecv, hnote, heq⟩
  · rw [heq]
    exact h.of_same rfl rfl rfl rfl rfl rfl rfl rfl rfl rfl
  · obtain ⟨htoken, hsubscribed, ⟨rest, hlink, hstage⟩, hsetup⟩ := h
    rw [heq]
    cases event with
    | updated uri =>
        rw [Conn.notification.eq_def] at hnote
        simp only [hsubscribed, Finset.notMem_empty, if_false] at hnote
        cases hnote
    | listChanged =>
        rw [Conn.notification.eq_def] at hnote
        dsimp only at hnote
        split_ifs at hnote with hauth
        have hwrap := Option.some.inj hnote
        have hshm : s.server.session.shm ≠ none := fun hnone =>
          htimely ⟨hauth, hnone, index, events, hrecv⟩
        have hshort : Short (utf8 "\x7b\x7d") := by
          rw [Short]
          exact (by decide +kernel : (utf8 "\x7b\x7d").length + 28 ≤ maxFrameLen)
        have hsendable := sendable_wrap hneg.lossless s.server.session.pipeline
          .resourceListChanged 0 hshort
        have hnotice : (s.server.session.pipeline.wrap .resourceListChanged 0
            (utf8 "\x7b\x7d")).1.header.msgType = .resourceListChanged :=
          PayloadPipeline.wrap_msgType _
        have hkey : (s.server.session.pipeline.wrap .resourceListChanged 0
            (utf8 "\x7b\x7d")).2.cipherKey = s.server.session.pipeline.cipherKey :=
          PayloadPipeline.cipherKey_wrap _
        have hout : s.server.wire ++ (s.server.queued ++ [frame]).map .frame ++ [] =
            s.outgoing ++ [.frame frame] := by
          rw [List.append_nil, List.map_append, ← List.append_assoc]
          rfl
        rw [hwrap] at hsendable hnotice hkey
        refine ⟨htoken, hsubscribed, ⟨_, hlink.extend rfl rfl rfl hlink.flow
          (List.prefix_append _ _) hout ?_ (fun _ => rfl), ?_⟩, ?_⟩
        · intro other hother
          rw [Live.Item.frame.inj (List.mem_singleton.mp hother)]
          exact hsendable
        · exact Stage.of_session (hstage.notify hshm hnotice) rfl rfl rfl hkey
        · intro reply hreply
          have hmem := List.mem_append_left [.frame frame] (hsetup reply hreply)
          rw [← hout] at hmem
          exact hmem

/-- The server's own steps. -/
theorem inv_server (hneg : Negotiable connector) (h : Inv connector s) {op : Live.Op}
    (hmeets : Meets s (.server op)) (hstep : step connector s (.server op) = some t) :
    Inv connector t := by
  cases op with
  | frame env frame => cases hstep
  | stop flow => cases hmeets.1
  | poll =>
      obtain ⟨server, hserver, rfl⟩ := Option.map_eq_some_iff.mp hstep
      rw [Live.step] at hserver
      split_ifs at hserver with hwaits
      obtain rfl := Option.some.inj hserver
      exact inv_poll hneg h hmeets.2
  | dry =>
      obtain ⟨server, hserver, rfl⟩ := Option.map_eq_some_iff.mp hstep
      rw [Live.step] at hserver
      split_ifs at hserver with hdry
      obtain rfl := Option.some.inj hserver
      obtain ⟨htoken, hsubscribed, ⟨rest, hlink, hstage⟩, hsetup⟩ := h
      have hlink' : Link { s with server := { s.server.flush with waiting := true } } (rest ++ []) :=
        hlink.extend rfl rfl rfl hlink.flow (List.prefix_append _ _)
          ((outgoing_dry s).trans (List.append_nil _).symm) (by rintro _ ⟨⟩) fun _ => rfl
      rw [List.append_nil] at hlink'
      refine ⟨htoken, hsubscribed, ⟨rest, hlink', hstage⟩, ?_⟩
      rw [outgoing_dry]
      exact hsetup
  | write uri text =>
      obtain rfl := Option.some.inj hstep
      exact h.of_same rfl rfl rfl rfl rfl rfl rfl rfl rfl rfl
  | add uri name mime text =>
      obtain rfl := Option.some.inj hstep
      exact h.of_same rfl rfl rfl rfl rfl rfl rfl rfl rfl rfl
  | send event =>
      obtain ⟨server, hserver, rfl⟩ := Option.map_eq_some_iff.mp hstep
      rw [Live.step] at hserver
      split_ifs at hserver
      obtain rfl := Option.some.inj hserver
      exact h.of_same rfl rfl rfl rfl rfl rfl rfl rfl rfl rfl
  | others cache acl =>
      obtain rfl := Option.some.inj hstep
      exact h.of_same rfl rfl rfl rfl rfl rfl rfl rfl rfl rfl

theorem step_handle (hflow : s.server.flow = .next) {frame : Frame} (hwf : frame.WellFormed)
    (huplink : s.uplink = frame.encode) (env : Environment) : step connector s (.handle env) =
      some { s with server := s.server.handle env frame, uplink := [] } := by
  rw [step, huplink, Frame.decode_encode hwf]
  simp only [Live.step, if_pos hflow, Option.map_some]

theorem step_handle_nil (huplink : s.uplink = []) (env : Environment) :
    step connector s (.handle env) = none := by
  rw [step, huplink, Frame.decode_nil]

/-- A frame that is answered by one frame. -/
theorem handle_of_reply {server : Live.State} {env : Environment} {frame reply : Frame}
    {shared : Shared} {session : Session}
    (heq : handleFrame env server.shared server.session frame =
      ⟨shared, session, [.queue reply], .next⟩) :
    server.handle env frame = { server with
      shared := shared
      session := session
      flow := .next
      waiting := false
      log := server.log ++ [.handled env server.shared server.session frame]
      queued := server.queued ++ [reply] } := by
  rw [Live.State.handle, heq]
  rfl

omit [Externals] in
theorem outgoing_queue (s : State) (reply : Frame) :
    s.server.wire ++ (s.server.queued ++ [reply]).map .frame = s.outgoing ++ [.frame reply] := by
  rw [List.map_append, ← List.append_assoc]
  rfl

/-- The one frame that answers a request goes behind everything on its way to the client. -/
theorem inv_of_reply {rest : List Live.Item} (hlink : Link s rest)
    (hsetup : ∀ reply, s.client.setup = some reply → .frame reply ∈ s.outgoing) {env : Environment}
    {frame reply : Frame} {shared : Shared} {session : Session}
    (heq : handleFrame env s.server.shared s.server.session frame =
      ⟨shared, session, [.queue reply], .next⟩)
    (hreply : reply.WellFormed ∧ reply.header.flags.shmRef = false)
    (htoken : shared.token = connector.token) (hsubscribed : session.subscribed = ∅)
    (hstage : Stage connector s.client [] session (rest ++ [.frame reply])) :
    Inv connector { s with server := s.server.handle env frame, uplink := [] } := by
  have hone : ∀ other, .frame other ∈ [Live.Item.frame reply] →
      other.WellFormed ∧ other.header.flags.shmRef = false := by
    intro other hother
    rw [Live.Item.frame.inj (List.mem_singleton.mp hother)]
    exact hreply
  rw [handle_of_reply heq]
  refine ⟨htoken, hsubscribed, ⟨_, hlink.extend rfl rfl rfl rfl List.prefix_rfl
    (outgoing_queue s reply) hone (by rintro ⟨⟩), hstage⟩, ?_⟩
  intro setup hset
  have hmem := List.mem_append_left [.frame reply] (hsetup setup hset)
  rw [← outgoing_queue] at hmem
  exact hmem

/-- The server handles what the client sent. -/
theorem inv_handle (hneg : Negotiable connector) (h : Inv connector s) {env : Environment}
    (hsucceeds : succeeds (.handle env) = true)
    (hstep : step connector s (.handle env) = some t) : Inv connector t := by
  obtain ⟨htoken, hsubscribed, ⟨rest, hlink, hstage⟩, hsetup⟩ := h
  have hidle : s.uplink = [] → Inv connector t := by
    intro hnil
    rw [step_handle_nil hnil] at hstep
    cases hstep
  cases hstage with
  | authSent token hconnector hphase huplink hapart =>
      have hwf : (authFrame
          (authParams connector.agentId token connector.nonce connector.eph)).WellFormed :=
        (sendable_new .auth 0 (hneg.short_auth token hconnector)).1
      rw [step_handle hlink.flow hwf huplink env] at hstep
      obtain rfl := Option.some.inj hstep
      refine inv_of_reply hlink hsetup
        (handleFrame_auth hneg hconnector (htoken.trans hconnector))
        (sendable_new .authResult 0 (hneg.short_authResult (some env.eph))) htoken hsubscribed ?_
      exact .authAnswered token _ _ hphase rfl ⟨hapart.shm_eq, hapart.fds_eq, hapart.setup_eq⟩ rfl
        (authenticate_authResult (hneg.keyExchange token hconnector env.eph) .own token
          (utf8 (hex connector.nonce)) s.client.pipeline connector.noncePrefix
          connector.noncePrefix_length) rfl
  | setupSent hphase huplink hapart hauth hkey =>
      have hwf : shmSetupFrame.WellFormed := ⟨rfl, Nat.zero_le _⟩
      rw [step_handle hlink.flow hwf huplink env] at hstep
      obtain rfl := Option.some.inj hstep
      rw [Live.State.handle, handleFrame_setup hauth hsucceeds]
      have hitems : ∀ frame, .frame frame ∈ [.raw 1, .raw 1,
          Live.Item.frame (setupFrame s.server.session.pipeline)] →
          frame.WellFormed ∧ frame.header.flags.shmRef = false := by
        intro frame hframe
        simp only [List.mem_cons, reduceCtorEq, false_or, List.not_mem_nil, or_false] at hframe
        rw [Live.Item.frame.inj hframe]
        exact sendable_wrap hneg.lossless _ _ _ hneg.short_setup
      have hwire : s.server.wire <+: s.outgoing ++ [.raw 1] ++ [.raw 1] := by
        rw [State.outgoing, List.append_assoc, List.append_assoc]
        exact List.prefix_append _ _
      have hout : s.outgoing ++ [.raw 1] ++ [.raw 1] ++
          [Live.Item.frame (setupFrame s.server.session.pipeline)] = s.outgoing ++ [.raw 1, .raw 1,
            .frame (setupFrame s.server.session.pipeline)] := by
        simp only [List.append_assoc, List.cons_append, List.nil_append]
      refine ⟨htoken, hsubscribed, ⟨_, hlink.extend rfl rfl rfl rfl hwire hout hitems (by rintro ⟨⟩), ?_⟩, ?_⟩
      · refine .setupAnswered 2 s.server.session.pipeline [] hphase ?_
          (fun h => absurd h (lt_irrefl 2)) (fun h => absurd h (by decide)) rfl hauth ?_ rfl
          rfl hapart.setup_eq hkey (by rintro _ ⟨⟩)
        · rw [hapart.fds_eq]
          rfl
        · rw [hkey]
          exact (PayloadPipeline.cipherKey_wrap _).symm
      · intro reply hreply
        rw [hapart.setup_eq] at hreply
        cases hreply
  | initializeSent frame resolved ring notices hphase huplink hwf hauth hkey hmapped hresolve hcap
      htype hid hnotices =>
      rw [step_handle hlink.flow hwf huplink env] at hstep
      obtain rfl := Option.some.inj hstep
      refine inv_of_reply hlink hsetup
        (handleFrame_initializeRequest hauth hresolve htype hid)
        (sendable_wrap hneg.lossless _ _ _ hneg.short_initializeResult) htoken hsubscribed ?_
      have hmapped' : Mapped s.client { s.server.session with
          pipeline := (s.server.session.pipeline.wrap .initializeResult 1
            (Externals.toVec .initializeResult initializeResult)).2
          shmUp := some ring } :=
        ⟨hmapped.shm_eq, hmapped.shmUp_eq.trans hcap, hmapped.fds_length, hmapped.setup⟩
      have hrest : notices.map Live.Item.frame ++
          [.frame (initializeFrame s.server.session.pipeline)] =
            (notices ++ [initializeFrame s.server.session.pipeline]).map .frame := by
        rw [List.map_append]
        rfl
      change Stage connector s.client [] _
        (notices.map Live.Item.frame ++ [.frame (initializeFrame s.server.session.pipeline)])
      rw [hrest]
      exact .initializeAnswered notices [] s.server.session.pipeline hphase rfl hauth
        (hkey.trans (PayloadPipeline.cipherKey_wrap _).symm) hmapped' hkey hnotices (by rintro _ ⟨⟩)
  | authAnswered token reply pipeline hphase huplink => exact hidle huplink
  | setupAnswered raws sender notices hphase hraws hdown hup huplink => exact hidle huplink
  | initializeAnswered before after sender hphase huplink => exact hidle huplink
  | done notices hphase huplink => exact hidle huplink

/-- The frame reader reads. -/
theorem inv_read (h : Inv connector s) {len : Nat} (hstep : step connector s (.read len) = some t) :
    Inv connector t := by
  obtain ⟨htoken, hsubscribed, ⟨rest, hlink, hstage⟩, hsetup⟩ := h
  rw [step] at hstep
  split_ifs at hstep with hready
  obtain rfl := Option.some.inj hstep
  obtain ⟨frames, hrest⟩ := hstage.frames hready.1
  exact ⟨htoken, hsubscribed, ⟨rest, hlink.read hrest hready.1 len, hstage⟩, hsetup⟩

omit [Externals] in
/-- A byte that carries a descriptor is taken past the frame reader. -/
theorem Link.receive {rest : List Live.Item} (h : Link s (.raw 1 :: rest)) (hbuf : s.buf = [])
    {cell : Cell} {more : List Cell} (hunread : s.unread = cell :: more) (client : Client)
    (hfds : client.fds = s.client.fds ++ [s.taken]) :
    cell = ⟨1, true⟩ ∧ Link { s with taken := s.taken + 1, client := client } rest := by
  have hahead := h.ahead
  rw [hbuf, List.map_nil, List.nil_append] at hahead
  have hcells : cells (.raw 1 :: rest) = ⟨1, true⟩ :: cells rest := rfl
  have hdrop : (cells s.outgoing).drop (s.taken + 1) = cells rest := by
    rw [← List.drop_drop, hahead, hcells, List.drop_one, List.tail_cons]
  have hcell : cell = ⟨1, true⟩ := by
    rw [h.outgoing_drop, hunread, hcells, List.cons_append] at hahead
    exact (List.cons.inj hahead).1
  have hlt : s.taken < (cells s.server.wire).length := by
    have hlen := congrArg List.length hunread
    rw [State.unread, List.length_drop, List.length_cons] at hlen
    omega
  refine ⟨hcell, h.flow, hlt, ?_, ?_, fun _ => hbuf, ?_, h.sendable, h.drained⟩
  · change s.buf.map plain ++ (cells s.outgoing).drop (s.taken + 1) = cells rest
    rw [hbuf, hdrop]
    rfl
  · exact (List.suffix_cons _ _).trans h.suffix
  · change client.fds ++ descriptors (s.taken + 1) ((cells s.outgoing).drop (s.taken + 1)) = _
    have hfds_eq := h.fds_eq
    rw [hahead, hcells, descriptors, if_pos rfl] at hfds_eq
    rw [hfds, hdrop, List.append_assoc]
    exact hfds_eq

omit [Externals] in
theorem receiveFd_down (hphase : s.client.phase = .downFd) : s.receiveFd ⟨1, true⟩ =
    { s with
      taken := s.taken + 1
      client := { s.client with
        fds := s.client.fds ++ [s.taken]
        down := true
        phase := .upFd } } := by
  rw [State.receiveFd, recvFd, if_neg (by decide), if_pos rfl]
  exact if_pos hphase

omit [Externals] in
theorem receiveFd_up (hphase : s.client.phase = .upFd) : s.receiveFd ⟨1, true⟩ =
    { s with
      taken := s.taken + 1
      client := { s.client with
        fds := s.client.fds ++ [s.taken]
        up := true
        phase := .setupReply } } := by
  have hother : s.client.phase ≠ .downFd := by
    rw [hphase]
    intro h
    cases h
  rw [State.receiveFd, recvFd, if_neg (by decide), if_pos rfl]
  exact if_neg hother

/-- `recv_fd_blocking` takes a byte. -/
theorem inv_receiveFd (h : Inv connector s) (hstep : step connector s .receiveFd = some t) :
    Inv connector t := by
  obtain ⟨htoken, hsubscribed, ⟨rest, hlink, hstage⟩, hsetup⟩ := h
  rw [step] at hstep
  rcases hunread : s.unread with _ | ⟨cell, more⟩
  · rw [hunread] at hstep
    cases hstep
  · rw [hunread] at hstep
    dsimp only at hstep
    split_ifs at hstep with hphase
    obtain rfl := Option.some.inj hstep
    have hbuf := hlink.raw hphase
    cases hstage with
    | setupSent =>
        have hahead := hlink.ahead
        rw [hbuf, hlink.outgoing_drop, hunread] at hahead
        cases hahead
    | setupAnswered raws sender notices hawaited hraws hdown hup huplink hauth hkey hshm hshmUp
        hnone hsender hnotices =>
        match raws with
        | 0 =>
            rw [hawaited] at hphase
            rcases hphase with hphase | hphase <;> cases hphase
        | 1 =>
            obtain ⟨rfl, hlink'⟩ := hlink.receive hbuf hunread
              { s.client with
                fds := s.client.fds ++ [s.taken]
                up := true
                phase := .setupReply } rfl
            rw [receiveFd_up hawaited]
            refine ⟨htoken, hsubscribed, ⟨_, hlink', ?_⟩, hsetup⟩
            refine .setupAnswered 0 sender notices rfl ?_ (fun _ => hdown (by decide)) (fun _ => rfl)
              huplink hauth hkey hshm hshmUp hnone hsender hnotices
            rw [List.length_append]
            exact hraws
        | 2 =>
            obtain ⟨rfl, hlink'⟩ := hlink.receive hbuf hunread
              { s.client with
                fds := s.client.fds ++ [s.taken]
                down := true
                phase := .upFd } rfl
            rw [receiveFd_down hawaited]
            refine ⟨htoken, hsubscribed, ⟨_, hlink', ?_⟩, hsetup⟩
            refine .setupAnswered 1 sender notices rfl ?_ (fun _ => rfl)
              (fun h => absurd h (Nat.lt_irrefl 1)) huplink hauth hkey hshm hshmUp hnone hsender
              hnotices
            rw [List.length_append]
            exact hraws
        | _ + 3 => omega
    | authSent token hconnector hauthReply =>
        rw [hauthReply] at hphase
        rcases hphase with hphase | hphase <;> cases hphase
    | authAnswered token reply pipeline hauthReply =>
        rw [hauthReply] at hphase
        rcases hphase with hphase | hphase <;> cases hphase
    | initializeSent frame resolved ring notices hinit =>
        rw [hinit] at hphase
        rcases hphase with hphase | hphase <;> cases hphase
    | initializeAnswered before after sender hinit =>
        rw [hinit] at hphase
        rcases hphase with hphase | hphase <;> cases hphase
    | done notices hdone =>
        rw [hdone] at hphase
        rcases hphase with hphase | hphase <;> cases hphase

/-! #### Taking a frame -/

theorem accept_auth {token : Bytes} (hphase : s.client.phase = .authReply token) {frame : Frame}
    {pipeline : PayloadPipeline} (hreply : authenticate s.client.pipeline connector.eph token
      (utf8 (hex connector.nonce)) connector.noncePrefix connector.noncePrefix_length frame =
        .ok pipeline) (moment : Moment) :
    s.accept connector moment frame = { s with
      uplink := s.uplink ++ shmSetupFrame.encode
      client := { s.client with pipeline := pipeline, phase := .downFd } } := by
  rw [State.accept]
  simp only [hphase, hreply]

theorem accept_initializeReply (hphase : s.client.phase = .initializeReply) (moment : Moment)
    (frame : Frame) : s.accept connector moment frame = s.readInitialize moment frame := by
  rw [State.accept]
  simp only [hphase]

theorem sendInitialize_eq (hclient : s.client.shmUp = some defaultShmCap)
    (hring : s.server.session.shmUp = some newRing) {frame : Frame} {pipeline : PayloadPipeline}
    {ring : Option ShmRing} (hrequest : requestFrame s.client.pipeline (some newRing)
      .initializeRequest 1 (Externals.toVec .initializeParams (initializeParams connector.agentId)) =
        (frame, pipeline, ring)) :
    s.sendInitialize connector = { s with
      server := { s.server with session := { s.server.session with shmUp := ring } }
      uplink := s.uplink ++ frame.encode
      client := { s.client with pipeline := pipeline, phase := .initializeReply } } := by
  rw [State.sendInitialize]
  simp only [hclient, hring, Option.bind_some, hrequest, Option.isSome_some, if_true]

theorem accept_setup (hneg : Negotiable connector) (hphase : s.client.phase = .setupReply)
    (hdown : s.client.down = true) (hup : s.client.up = true) {sender : PayloadPipeline}
    (hkey : sender.SameKey s.client.pipeline) (hring : s.server.session.shmUp = some newRing)
    {frame : Frame} {pipeline : PayloadPipeline} {ring : Option ShmRing}
    (hrequest : requestFrame s.client.pipeline (some newRing) .initializeRequest 1
      (Externals.toVec .initializeParams (initializeParams connector.agentId)) =
        (frame, pipeline, ring)) (moment : Moment) :
    s.accept connector moment (setupFrame sender) = { s with
      server := { s.server with session := { s.server.session with shmUp := ring } }
      uplink := s.uplink ++ frame.encode
      client := { s.client with
        pipeline := pipeline
        shm := some defaultShmCap
        shmUp := some defaultShmCap
        setup := some (setupFrame sender)
        phase := .initializeReply } } := by
  have hrings : setupRings s.client.pipeline moment.now (setupFrame sender) s.client.down
      s.client.up = (.ok (some defaultShmCap, some defaultShmCap), s.client.pipeline) := by
    rw [hdown, hup]
    exact setupRings_setupFrame hneg hkey moment.now
  have haccept : s.accept connector moment (setupFrame sender) =
      { s with client := { s.client with
        shm := some defaultShmCap
        shmUp := some defaultShmCap
        setup := some (setupFrame sender) } }.sendInitialize connector := by
    rw [State.accept]
    simp only [hphase, hrings]
  rw [haccept]
  exact sendInitialize_eq (s := { s with client := { s.client with
    shm := some defaultShmCap
    shmUp := some defaultShmCap
    setup := some (setupFrame sender) } }) rfl hring hrequest

/-- What the client does with the frame that is due. -/
theorem inv_accept (hneg : Negotiable connector)
    (htoken : s.server.shared.token = connector.token)
    (hsubscribed : s.server.session.subscribed = ∅) {frame : Frame} {later : List Live.Item}
    (hstage : Stage connector s.client s.uplink s.server.session (.frame frame :: later))
    (hlink : Link s later) (hframed : s.client.phase.framed = true)
    (hsetup : ∀ reply, s.client.setup = some reply → .frame reply ∈ s.outgoing)
    (hmem : .frame frame ∈ s.outgoing) (moment : Moment) :
    Inv connector (s.accept connector moment frame) := by
  generalize hrest : Live.Item.frame frame :: later = rest at hstage
  have hnotice : s.client.phase = .initializeReply → Mapped s.client s.server.session →
      IsNotice frame → s.accept connector moment frame = s := by
    intro hphase hmapped hnotice
    rw [accept_initializeReply hphase]
    exact readInitialize_notice hmapped.shm_eq (hlink.sendable frame hmem).2 hnotice moment
  cases hstage with
  | authSent => cases hrest
  | setupSent => cases hrest
  | authAnswered token reply pipeline hphase huplink hapart hauth hreply hkey =>
      obtain ⟨hframe, rfl⟩ := List.cons.inj hrest
      obtain rfl := Live.Item.frame.inj hframe
      rw [accept_auth hphase hreply]
      have hempty : s.buf = [] :=
        List.map_eq_nil_iff.mp (List.append_eq_nil_iff.mp hlink.ahead).1
      refine ⟨htoken, hsubscribed, ⟨_, hlink.of_same rfl rfl rfl hlink.flow rfl rfl rfl
        (fun _ => hempty), ?_⟩, hsetup⟩
      refine .setupSent rfl ?_ ⟨hapart.shm_eq, hapart.fds_eq, hapart.setup_eq⟩ hauth hkey
      change s.uplink ++ shmSetupFrame.encode = shmSetupFrame.encode
      rw [huplink, List.nil_append]
  | setupAnswered raws sender notices hphase hraws hdown hup huplink hauth hkey hshm hshmUp hnone
      hsender hnotices =>
      match raws with
      | 0 =>
          obtain ⟨hframe, rfl⟩ := List.cons.inj hrest
          obtain rfl := Live.Item.frame.inj hframe
          obtain ⟨request, resolved, pipeline, ring, ring', hrequest, hwf, hsame, hcap, hresolve,
            hcap', htype, hid⟩ := requestFrame_initializeRequest hneg s.client.pipeline
          rw [accept_setup hneg hphase (hdown (by decide)) (hup (by decide)) hsender hshmUp hrequest]
          have hmapped : Mapped { s.client with
                pipeline := pipeline
                shm := some defaultShmCap
                shmUp := some defaultShmCap
                setup := some (setupFrame sender)
                phase := .initializeReply }
              { s.server.session with shmUp := some ring } := by
            refine ⟨?_, ?_, hraws, setupFrame sender, rfl, rfl⟩
            · rw [hshm]
              rfl
            · exact congrArg some hcap.symm
          refine ⟨htoken, hsubscribed, ⟨_, hlink.of_same rfl rfl rfl hlink.flow rfl rfl rfl
            (by rintro (h | h) <;> cases h),
            ?_⟩, ?_⟩
          · refine .initializeSent request resolved ring' notices rfl ?_ hwf hauth
              (hsame.trans hkey) hmapped hresolve ?_ htype hid hnotices
            · change s.uplink ++ request.encode = request.encode
              rw [huplink, List.nil_append]
            · exact congrArg some (hcap.trans hcap'.symm)
          · intro reply hreply
            rw [← Option.some.inj hreply]
            exact hmem
      | 1 =>
          rw [hphase] at hframed
          cases hframed
      | _ + 2 =>
          rw [hphase] at hframed
          cases hframed
  | initializeSent frame' resolved ring notices hphase huplink hwf hauth hkey hmapped hresolve
      hcap htype hid hnotices =>
      match notices with
      | [] => cases hrest
      | notice :: notices =>
          obtain ⟨hframe, rfl⟩ := List.cons.inj hrest
          obtain rfl := Live.Item.frame.inj hframe
          obtain ⟨hfirst, hnotices⟩ := List.forall_mem_cons.mp hnotices
          rw [hnotice hphase hmapped hfirst]
          exact ⟨htoken, hsubscribed, ⟨_, hlink, .initializeSent frame' resolved ring notices hphase
            huplink hwf hauth hkey hmapped hresolve hcap htype hid hnotices⟩, hsetup⟩
  | initializeAnswered before after sender hphase huplink hauth hkey hmapped hsender hbefore
      hafter =>
      match before with
      | [] =>
          obtain ⟨hframe, rfl⟩ := List.cons.inj hrest
          obtain rfl := Live.Item.frame.inj hframe
          rw [accept_initializeReply hphase,
            readInitialize_reply hneg hmapped.shm_eq hsender]
          exact ⟨htoken, hsubscribed, ⟨_, hlink.of_same rfl rfl rfl hlink.flow rfl rfl rfl
            (by rintro (h | h) <;> cases h),
            .done after rfl huplink hauth hkey ⟨hmapped.shm_eq, hmapped.shmUp_eq,
              hmapped.fds_length, hmapped.setup⟩ hafter⟩, hsetup⟩
      | notice :: before =>
          obtain ⟨hframe, rfl⟩ := List.cons.inj hrest
          obtain rfl := Live.Item.frame.inj hframe
          obtain ⟨hfirst, hbefore⟩ := List.forall_mem_cons.mp hbefore
          rw [hnotice hphase hmapped hfirst]
          exact ⟨htoken, hsubscribed, ⟨_, hlink, .initializeAnswered before after sender hphase
            huplink hauth hkey hmapped hsender hbefore hafter⟩, hsetup⟩
  | done notices hphase =>
      rw [hphase] at hframed
      cases hframed

/-- The client takes a frame out of its buffer. -/
theorem inv_take (hneg : Negotiable connector) (h : Inv connector s) {moment : Moment}
    (hstep : step connector s (.take moment) = some t) : Inv connector t := by
  obtain ⟨htoken, hsubscribed, ⟨rest, hlink, hstage⟩, hsetup⟩ := h
  rw [step] at hstep
  split_ifs at hstep with hframed
  obtain ⟨frames, hrest⟩ := hstage.frames hframed
  rcases hlink.buffered hrest with ⟨frame, later, buf, rfl, hdecode, hbuf⟩ | ⟨hdecode, _⟩
  · rw [hdecode] at hstep
    obtain rfl := Option.some.inj hstep
    have hmem : .frame frame ∈ s.outgoing := hlink.suffix.subset (by
      rw [hrest]
      exact List.mem_cons_self)
    rw [hrest] at hstage
    exact inv_accept (s := { s with buf := buf }) hneg htoken hsubscribed hstage
      (hlink.take hrest hbuf hframed) hframed hsetup hmem moment
  · rw [hdecode] at hstep
    cases hstep

theorem inv_step (hneg : Negotiable connector) (h : Inv connector s) {op : Op}
    (hmeets : Meets s op) (hstep : step connector s op = some t) : Inv connector t := by
  cases op with
  | handle env => exact inv_handle hneg h hmeets.1 hstep
  | server op => exact inv_server hneg h hmeets hstep
  | read len => exact inv_read h hstep
  | receiveFd => exact inv_receiveFd h hstep
  | take moment => exact inv_take hneg h hstep

end Steps

end Negotiation

end Ohmcp
