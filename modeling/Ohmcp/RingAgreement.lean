import Ohmcp.ExchangeSteps

/-! A `connect_shm` completes, and both ends agree about the rings, as long as no notification is pushed
before the rings are set up. -/

open Transition

namespace Ohmcp

variable [Externals]

namespace Negotiation

section Steps

variable {connector : Connector} {s t : State}

/-! ### The exchange completes -/

omit [Externals] in
/-- How many waits of the client are left. -/
def Phase.left : Phase → Nat
  | .authReply _ => 5
  | .downFd => 4
  | .upFd => 3
  | .setupReply => 2
  | .initializeReply => 1
  | .done | .failed _ => 0

omit [Externals] in
/-- What is left to be done: waits of the client, bytes the server has to handle, frames to write,
bytes to read and to decode. -/
def State.left (s : State) : Nat × Nat × Nat × Nat :=
  (s.client.phase.left, s.uplink.length, s.server.queued.length, 2 * s.unread.length + s.buf.length)

omit [Externals] in
def Less : Nat × Nat × Nat × Nat → Nat × Nat × Nat × Nat → Prop :=
  Prod.Lex (· < ·) (Prod.Lex (· < ·) (Prod.Lex (· < ·) (· < ·)))

omit [Externals] in
theorem less_wf : WellFounded Less :=
  Nat.lt_wfRel.wf.prod_lex (Nat.lt_wfRel.wf.prod_lex (Nat.lt_wfRel.wf.prod_lex Nat.lt_wfRel.wf))

omit [Externals] in
theorem less_of_phase (h : t.client.phase.left < s.client.phase.left) : Less t.left s.left :=
  .left _ _ h

/-- A step of the exchange that leaves less to be done. -/
def Advances (connector : Connector) (s : State) : Prop :=
  ∃ op t, step connector s op = some t ∧ Meets s op ∧ Less t.left s.left

theorem advances_handle (hflow : s.server.flow = .next) {frame : Frame} (hwf : frame.WellFormed)
    (huplink : s.uplink = frame.encode) : Advances connector s := by
  refine ⟨.handle AuthRuns.environment, _, step_handle hflow hwf huplink _, ⟨rfl, trivial⟩, ?_⟩
  refine .right _ (.left _ _ ?_)
  rw [huplink]
  exact List.length_pos_iff.mpr (Frame.encode_ne_nil frame)

theorem advances_dry {rest : List Live.Item} (hlink : Link s rest) (hqueued : s.server.queued ≠ []) :
    Advances connector s := by
  have hwaiting : s.server.waiting = false := by
    cases hwaits : s.server.waiting with
    | false => rfl
    | true => exact absurd (hlink.drained hwaits) hqueued
  have hstep : step connector s (.server .dry) =
      some { s with server := { s.server.flush with waiting := true } } := by
    have hdry : Live.step s.server .dry = some { s.server.flush with waiting := true } := by
      rw [Live.step, if_pos ⟨hlink.flow, hwaiting⟩]
    rw [step.eq_def]
    dsimp only
    rw [hdry, Option.map_some]
  refine ⟨.server .dry, _, hstep, ⟨rfl, trivial⟩, ?_⟩
  exact .right _ (.right _ (.left _ _ (List.length_pos_iff.mpr hqueued)))

omit [Externals] in
theorem unread_ne_nil {rest : List Live.Item} (hlink : Link s rest) (hqueued : s.server.queued = [])
    (hahead : (cells s.outgoing).drop s.taken ≠ []) : s.unread ≠ [] := by
  rw [hlink.outgoing_drop, hqueued] at hahead
  exact fun hnil => hahead (by rw [hnil]; rfl)

/-- The frame reader finds a frame in its buffer, or reads. -/
theorem advances_frame {frame : Frame} {later : List Frame}
    (hlink : Link s ((frame :: later).map .frame)) (hqueued : s.server.queued = [])
    (hframed : s.client.phase.framed = true)
    (haccept : ∀ buf moment, buf.length < s.buf.length →
      Less ({ s with buf := buf }.accept connector moment frame).left s.left) :
    Advances connector s := by
  rcases hlink.buffered rfl with ⟨frame', later', buf, hframes, hdecode, _⟩ | ⟨hdecode, hne⟩
  · obtain ⟨rfl, rfl⟩ := List.cons.inj hframes
    have hstep : step connector s (.take ⟨0, 0, 0, []⟩) =
        some ({ s with buf := buf }.accept connector ⟨0, 0, 0, []⟩ frame) := by
      rw [step, if_pos hframed, hdecode]
    exact ⟨_, _, hstep, ⟨rfl, trivial⟩, haccept buf _ (Frame.length_lt_of_decode hdecode)⟩
  · have hunread := unread_ne_nil hlink hqueued (hne (List.cons_ne_nil _ _))
    have hchunk : s.unread.take (s.unread.length + 1) = s.unread :=
      List.take_of_length_le (Nat.le_succ _)
    have hready : s.client.phase.framed = true ∧ (Frame.decode s.buf).1 = .ok none ∧
        s.unread ≠ [] := ⟨hframed, by rw [hdecode], hunread⟩
    have hstep : step connector s (.read s.unread.length) = some { s with
        buf := s.buf ++ s.unread.map Cell.byte
        taken := s.taken + s.unread.length } := by
      rw [step, if_pos hready, hchunk]
    refine ⟨_, _, hstep, ⟨rfl, trivial⟩, .right _ (.right _ (.right _ ?_))⟩
    have hnil : (cells s.server.wire).drop (s.taken + s.unread.length) = [] := by
      rw [← List.drop_drop]
      exact List.drop_length
    have hpos := List.length_pos_iff.mpr hunread
    change 2 * ((cells s.server.wire).drop (s.taken + s.unread.length)).length +
      (s.buf ++ s.unread.map Cell.byte).length < 2 * s.unread.length + s.buf.length
    rw [hnil, List.length_append, List.length_map, List.length_nil]
    omega

/-- A byte with a descriptor is there to be taken. -/
theorem advances_receive {rest : List Live.Item} (hlink : Link s (.raw 1 :: rest))
    (hqueued : s.server.queued = []) (hphase : s.client.phase = .downFd ∨ s.client.phase = .upFd) :
    Advances connector s := by
  have hbuf := hlink.raw hphase
  have hne : (cells s.outgoing).drop s.taken ≠ [] := by
    have hahead := hlink.ahead
    rw [hbuf, List.map_nil, List.nil_append] at hahead
    rw [hahead]
    exact List.cons_ne_nil _ _
  obtain ⟨cell, more, hunread⟩ := List.exists_cons_of_ne_nil (unread_ne_nil hlink hqueued hne)
  obtain ⟨rfl, _⟩ := hlink.receive hbuf hunread
    { s.client with fds := s.client.fds ++ [s.taken] } rfl
  have hstep : step connector s .receiveFd = some (s.receiveFd ⟨1, true⟩) := by
    rw [step, hunread]
    exact if_pos hphase
  refine ⟨_, _, hstep, ⟨rfl, trivial⟩, less_of_phase ?_⟩
  rcases hphase with hphase | hphase
  · rw [receiveFd_down hphase, hphase]
    exact (by decide : Phase.upFd.left < Phase.downFd.left)
  · rw [receiveFd_up hphase, hphase]
    exact (by decide : Phase.setupReply.left < Phase.upFd.left)

/-- Until the connecting is done, there is a step that brings it on. -/
theorem advances (hneg : Negotiable connector) (h : Inv connector s)
    (hdone : s.client.phase ≠ .done) : Advances connector s := by
  obtain ⟨htoken, hsubscribed, ⟨rest, hlink, hstage⟩, hsetup⟩ := h
  by_cases hqueued : s.server.queued = []
  · cases hstage with
    | authSent token hconnector hphase huplink hapart =>
        exact advances_handle hlink.flow
          (sendable_new .auth 0 (hneg.short_auth token hconnector)).1 huplink
    | setupSent hphase huplink hapart hauth hkey =>
        exact advances_handle hlink.flow ⟨rfl, Nat.zero_le _⟩ huplink
    | initializeSent frame resolved ring notices hphase huplink hwf =>
        exact advances_handle hlink.flow hwf huplink
    | authAnswered token reply pipeline hphase huplink hapart hauth hreply hkey =>
        have hlink' : Link s ([reply].map .frame) := hlink
        refine advances_frame hlink' hqueued (by rw [hphase]; rfl) ?_
        intro buf moment _
        refine less_of_phase ?_
        rw [accept_auth (s := { s with buf := buf }) hphase hreply, hphase]
        exact Nat.lt_succ_self _
    | setupAnswered raws sender notices hphase hraws hdown hup huplink hauth hkey hshm hshmUp hnone
        hsender hnotices =>
        match raws with
        | 0 =>
            obtain ⟨request, resolved, pipeline, ring, ring', hrequest, _⟩ :=
              requestFrame_initializeRequest hneg s.client.pipeline
            refine advances_frame hlink hqueued (by rw [hphase]; rfl) ?_
            intro buf moment _
            refine less_of_phase ?_
            rw [accept_setup (s := { s with buf := buf }) hneg hphase (hdown (by decide))
              (hup (by decide)) hsender hshmUp hrequest, hphase]
            exact Nat.lt_succ_self _
        | 1 => exact advances_receive hlink hqueued (.inr hphase)
        | _ + 2 => exact advances_receive hlink hqueued (.inl hphase)
    | initializeAnswered before after sender hphase huplink hauth hkey hmapped hsender hbefore
        hafter =>
        match before with
        | [] =>
            refine advances_frame hlink hqueued (by rw [hphase]; rfl) ?_
            intro buf moment _
            refine less_of_phase ?_
            rw [accept_initializeReply (s := { s with buf := buf }) hphase,
              readInitialize_reply (s := { s with buf := buf }) hneg hmapped.shm_eq hsender, hphase]
            exact Nat.lt_succ_self _
        | notice :: before =>
            have hmem : .frame notice ∈ s.outgoing := hlink.suffix.subset List.mem_cons_self
            refine advances_frame hlink hqueued (by rw [hphase]; rfl) ?_
            intro buf moment hshorter
            rw [accept_initializeReply (s := { s with buf := buf }) hphase,
              readInitialize_notice (s := { s with buf := buf }) hmapped.shm_eq
                (hlink.sendable notice hmem).2 (hbefore notice List.mem_cons_self)]
            exact .right _ (.right _ (.right _ (Nat.add_lt_add_left hshorter _)))
    | done notices hphase => exact absurd hphase hdone
  · exact advances_dry hlink hqueued

/-! ### What the invariant says -/

omit [Externals] in
theorem Link.descriptors_wire {rest : List Live.Item} (hlink : Link s rest) :
    s.client.fds ++ descriptors s.taken ((cells s.outgoing).drop s.taken) =
      descriptors 0 (cells s.server.wire) := by
  rw [hlink.fds_eq, State.outgoing, cells_append, descriptors_append, cells_map_frame,
    descriptors_plain, List.append_nil]

omit [Externals] in
/-- When only frames are ahead, all descriptors have been taken. -/
theorem Link.fds_of_frames {frames : List Frame} (hlink : Link s (frames.map .frame)) :
    s.client.fds = descriptors 0 (cells s.server.wire) := by
  have hahead := hlink.ahead
  rw [cells_map_frame] at hahead
  obtain ⟨more, hmore, _⟩ := exists_of_map_plain hahead
  rw [← hlink.descriptors_wire, hmore, descriptors_plain, List.append_nil]

omit [Externals] in
theorem mem_frames_iff {frame : Frame} : frame ∈ s.server.frames ↔ .frame frame ∈ s.outgoing := by
  rw [Live.State.frames, State.outgoing, List.mem_append, List.mem_append, Live.framesOf,
    List.mem_filterMap]
  constructor
  · rintro (⟨item, hitem, hframe⟩ | hframe)
    · cases item with
      | frame frame' =>
          obtain rfl := Option.some.inj hframe
          exact .inl hitem
      | raw byte => cases hframe
    · exact .inr (List.mem_map_of_mem hframe)
  · rintro (hitem | hitem)
    · exact .inl ⟨_, hitem, rfl⟩
    · obtain ⟨frame', hframe, heq⟩ := List.mem_map.mp hitem
      rw [← Live.Item.frame.inj heq]
      exact .inr hframe

/-- Only a ring makes references. -/
theorem shm_of_shmRef {pipeline : PayloadPipeline} {shm : Option ShmRing} {msgType : MsgType}
    {id : UInt64} {payload : Bytes}
    (h : (wrapShm pipeline shm msgType id payload).1.header.flags.shmRef = true) : shm ≠ none := by
  rintro rfl
  rw [wrapShm, (PayloadPipeline.wrap_flags pipeline msgType id payload).2.2.1] at h
  cases h

omit [Externals] in
theorem Mapped.ne_none {client : Client} {session : Session} (h : Mapped client session)
    (hshm : session.shm ≠ none) : client.shm ≠ none := by
  rw [h.shm_eq, ne_eq, Option.map_eq_none_iff]
  exact hshm

omit [Externals] in
theorem decode_uplink_nil {uplink rest : Bytes} {frame : Frame} (hnil : uplink = []) :
    Frame.decode uplink ≠ (.ok (some frame), rest) := by
  rw [hnil, Frame.decode_nil]
  intro h
  cases h

/-- What is on its way to the server is no reference, or the server has the ring. -/
theorem Stage.uplink {rest : List Live.Item} {client : Client} {uplink : Bytes} {session : Session}
    (hneg : Negotiable connector) (h : Stage connector client uplink session rest) {frame : Frame}
    {more : Bytes} (hdecode : Frame.decode uplink = (.ok (some frame), more))
    (hflag : frame.header.flags.shmRef = true) : session.shmUp ≠ none := by
  have hsent : ∀ {sent : Frame}, uplink = sent.encode → sent.WellFormed → frame = sent := by
    intro sent huplink hwf
    rw [huplink, Frame.decode_encode hwf] at hdecode
    exact (Option.some.inj (Except.ok.inj (Prod.mk.inj hdecode).1)).symm
  have hinline : FrameFlags.none.shmRef = false := by decide
  cases h with
  | authSent token hconnector hphase huplink =>
      rw [hsent huplink (sendable_new .auth 0 (hneg.short_auth token hconnector)).1] at hflag
      exact absurd (hinline.symm.trans hflag) Bool.false_ne_true
  | setupSent hphase huplink =>
      rw [hsent huplink ⟨rfl, Nat.zero_le _⟩] at hflag
      exact absurd (hinline.symm.trans hflag) Bool.false_ne_true
  | initializeSent frame' resolved ring notices hphase huplink hwf hauth hkey hmapped hresolve hcap =>
      intro hnone
      rw [hnone] at hcap
      cases hcap
  | authAnswered token reply pipeline hphase huplink => exact absurd hdecode (decode_uplink_nil huplink)
  | setupAnswered raws sender notices hphase hraws hdown hup huplink =>
      exact absurd hdecode (decode_uplink_nil huplink)
  | initializeAnswered before after sender hphase huplink =>
      exact absurd hdecode (decode_uplink_nil huplink)
  | done notices hphase huplink => exact absurd hdecode (decode_uplink_nil huplink)

/-- The phase has not failed, and what was taken for the reply to `ShmSetup` is that reply. -/
theorem Stage.phase {rest : List Live.Item} {client : Client} {uplink : Bytes} {session : Session}
    (h : Stage connector client uplink session rest) :
    (∀ e, client.phase ≠ .failed e) ∧
      (∀ reply, client.setup = some reply → reply.header.msgType = .shmSetupResult) := by
  have hapart : client.setup = none →
      ∀ reply, client.setup = some reply → reply.header.msgType = .shmSetupResult := by
    intro hnone reply hreply
    rw [hnone] at hreply
    cases hreply
  have hmapped : Mapped client session →
      ∀ reply, client.setup = some reply → reply.header.msgType = .shmSetupResult := by
    intro hmapped reply hreply
    obtain ⟨setup, hsetup, htype⟩ := hmapped.setup
    rw [hsetup] at hreply
    rw [← Option.some.inj hreply]
    exact htype
  have halive : ∀ {phase : Phase}, client.phase = phase → (∀ e, phase ≠ .failed e) →
      ∀ e, client.phase ≠ .failed e := by
    intro phase hphase hne
    rw [hphase]
    exact hne
  cases h with
  | authSent token _ hphase _ hapart₀ =>
      exact ⟨halive hphase (by rintro _ ⟨⟩), hapart hapart₀.setup_eq⟩
  | authAnswered token reply pipeline hphase _ hapart₀ =>
      exact ⟨halive hphase (by rintro _ ⟨⟩), hapart hapart₀.setup_eq⟩
  | setupSent hphase _ hapart₀ => exact ⟨halive hphase (by rintro _ ⟨⟩), hapart hapart₀.setup_eq⟩
  | setupAnswered raws sender notices hphase _ _ _ _ _ _ _ _ hnone =>
      refine ⟨halive hphase ?_, hapart hnone⟩
      match raws with
      | 0 => rintro _ ⟨⟩
      | 1 => rintro _ ⟨⟩
      | _ + 2 => rintro _ ⟨⟩
  | initializeSent frame resolved ring notices hphase _ _ _ _ hmapped₀ =>
      exact ⟨halive hphase (by rintro _ ⟨⟩), hmapped hmapped₀⟩
  | initializeAnswered before after sender hphase _ _ _ hmapped₀ =>
      exact ⟨halive hphase (by rintro _ ⟨⟩), hmapped hmapped₀⟩
  | done notices hphase _ _ _ hmapped₀ => exact ⟨halive hphase (by rintro _ ⟨⟩), hmapped hmapped₀⟩

/-- A client that is done has the rings, and only notifications are ahead of it. -/
theorem Stage.of_done {rest : List Live.Item} {client : Client} {uplink : Bytes} {session : Session}
    (h : Stage connector client uplink session rest) (hdone : client.phase = .done) :
    Mapped client session ∧ ∃ notices : List Frame, rest = notices.map .frame := by
  cases h with
  | done notices _ _ _ _ hmapped => exact ⟨hmapped, notices, rfl⟩
  | authSent token _ hphase =>
      rw [hphase] at hdone
      cases hdone
  | authAnswered token reply pipeline hphase =>
      rw [hphase] at hdone
      cases hdone
  | setupSent hphase =>
      rw [hphase] at hdone
      cases hdone
  | setupAnswered raws sender notices hphase =>
      rw [hphase] at hdone
      match raws with
      | 0 => cases hdone
      | 1 => cases hdone
      | _ + 2 => cases hdone
  | initializeSent frame resolved ring notices hphase =>
      rw [hphase] at hdone
      cases hdone
  | initializeAnswered before after sender hphase =>
      rw [hphase] at hdone
      cases hdone

theorem agrees_of_inv (hneg : Negotiable connector) (h : Inv connector s) : Agrees s := by
  obtain ⟨htoken, hsubscribed, ⟨rest, hlink, hstage⟩, hsetup⟩ := h
  refine ⟨hstage.phase.1, hlink.flow, ⟨_, hlink.descriptors_wire⟩, ?_, ?_, ?_, ?_, ?_⟩
  · intro reply hreply
    exact ⟨hstage.phase.2 reply hreply, mem_frames_iff.mpr (hsetup reply hreply)⟩
  · exact fun frame hframe => (hlink.sendable frame (mem_frames_iff.mp hframe)).2
  · exact fun frame more hdecode hflag => hstage.uplink hneg hdecode hflag
  · intro hdone
    obtain ⟨hmapped, notices, rfl⟩ := hstage.of_done hdone
    exact ⟨hmapped, hlink.fds_of_frames⟩
  · intro hdone pipeline msgType id payload
    refine ⟨fun hflag => (hstage.of_done hdone).1.ne_none (shm_of_shmRef hflag), ?_⟩
    intro hflag hnone
    refine shm_of_shmRef hflag ?_
    rw [hnone]
    cases s.client.shmUp <;> rfl

end Steps

/-- **Shared-memory negotiation.** Whatever resources are added or updated while a client connects
and however the bytes are grouped into its reads, as long as no notification is pushed before the
rings are set up: the connecting does not fail and can always be completed; the bytes that were
taken for descriptors carry them, all of them once it is done; what was taken for the reply to
`ShmSetup` is that reply; and in the end each end has the rings the other uses. -/
theorem rings_agree {connector : Connector} (hneg : Negotiable connector) {shared : Shared}
    (htoken : shared.token = connector.token) {past pending : List ResourceEvent} {ops : List Op}
    {s : State} (hrun : Run (step connector) Meets (.start connector shared past pending) ops s) :
    Agrees s ∧ ∃ ops' t, Run (step connector) Meets s ops' t ∧ t.client.phase = .done := by
  have hinv : Inv connector s :=
    hrun.invariant (fun _ _ _ h hmeets hstep => inv_step hneg h hmeets hstep)
      (inv_start htoken past pending)
  refine ⟨agrees_of_inv hneg hinv, ?_⟩
  obtain ⟨ops', t, hrun', _, hdone⟩ := Run.exists_of_progress less_wf State.left
    (fun s h hdone => by
      obtain ⟨op, t, hstep, hmeets, hless⟩ := advances hneg h hdone
      exact ⟨op, t, hstep, hmeets, inv_step hneg h hmeets hstep, hless⟩) s hinv
  exact ⟨ops', t, hrun', hdone⟩

/-! ### Two exchanges -/

omit [Externals] in
/-- Externals that print and read the replies of a negotiation. -/
@[reducible] def replies : Externals where
  __ := Externals.plain
  toVec
    | .value, _ => utf8 "\x7b\"ok\":true,\"size\":4194304,\"up_size\":4194304\x7d"
    | .initializeResult, _ => utf8 "\x7b\"protocolVersion\":\"2025-06-18\"\x7d"
    | _, _ => []
  fromSlice
    | .value, bytes =>
        if bytes = utf8 "\x7b\"ok\":true,\"size\":4194304,\"up_size\":4194304\x7d" then
          some (shmSetupResult true)
        else none
    | .initializeResult, bytes =>
        if bytes = utf8 "\x7b\"protocolVersion\":\"2025-06-18\"\x7d" then some initializeResult
        else none
    | _, _ => none

omit [Externals] in
/-- A client without a token. -/
def openConnector : Connector :=
  ⟨"agent", none, [], ⟨.zeros⟩, [0, 0, 0, 0], length_zeroPrefix⟩

omit [Externals] in
def openServer : Shared := ⟨.new, .new 65536 cacheTtl, .new, none⟩

omit [Externals] in
theorem negotiable_openConnector : letI : Externals := replies
    Negotiable openConnector := by
  let _ : Externals := replies
  have hshort : ∀ {payload : Bytes}, payload.length ≤ 100 → Short payload := by
    intro payload hle
    have hmax : maxFrameLen = 64 * 1024 * 1024 := rfl
    rw [Short]
    omega
  refine @Negotiable.mk replies openConnector ?_ (by rintro _ ⟨⟩) (if_pos rfl) (if_pos rfl)
    (by rintro _ ⟨⟩) ?_ ?_ ?_ ?_
  · exact @Externals.Lossless.mk replies
      (@Externals.Lossless.decompress_compress .plain Externals.plain_lossless)
      (@Externals.Lossless.decrypt_encrypt .plain Externals.plain_lossless)
      (@Externals.Lossless.length_encrypt .plain Externals.plain_lossless)
  · exact fun _ => hshort (Nat.zero_le _)
  · exact hshort (by decide +kernel)
  · exact hshort (Nat.zero_le _)
  · exact hshort (by decide +kernel)

omit [Externals] in
/-- A change of the resource list, up to the moment the session waits. -/
def listChange : List Op :=
  [.server (.add "file:///a" "a" "text/plain" "text"), .server (.send .listChanged), .server .dry,
    .server .poll]

omit [Externals] in
/-- The list changes while the client takes its descriptors. -/
def lateChange : List Op :=
  .handle AuthRuns.environment :: listChange ++
    [.receiveFd, .receiveFd, .read 1000, .take ⟨0, 0, 0, []⟩, .handle AuthRuns.environment,
      .server .dry, .take ⟨0, 0, 0, []⟩, .read 1000, .take ⟨0, 0, 0, []⟩]

omit [Externals] in
/-- The condition of the runs, where it can be evaluated. -/
def test (s : State) : Op → Bool
  | .server .poll => s.server.session.shm.isSome
  | op => succeeds op

omit [Externals] in
theorem meets_of_test {s : State} {op : Op} (h : test s op = true) : Meets s op := by
  have hpoll : s.server.session.shm.isSome = true → ¬ Premature s := by
    rintro hsome ⟨_, hnone, _⟩
    rw [hnone] at hsome
    cases hsome
  cases op with
  | server op =>
      cases op with
      | poll => exact ⟨rfl, hpoll h⟩
      | _ => exact ⟨h, trivial⟩
  | _ => exact ⟨h, trivial⟩

omit [Externals] in
/-- The connecting goes through, and the two descriptors were the first two bytes. -/
theorem rings_agree_late : letI : Externals := replies
    ∃ s, Run (step openConnector) Meets (.start openConnector openServer [] []) lateChange s ∧
      s.client.phase = .done ∧ s.client.fds = [0, 1] ∧ Agrees s := by
  let _ : Externals := replies
  obtain ⟨s, hexec, hfinal⟩ : ∃ s, exec (step openConnector) test
      (.start openConnector openServer [] []) lateChange = some s ∧
        (s.client.phase, s.client.fds) = (.done, [0, 1]) :=
    Option.map_eq_some_iff.mp (by decide +kernel)
  have hrun : Run (step openConnector) Meets (.start openConnector openServer [] []) lateChange s :=
    (run_of_exec hexec).weaken fun _ _ => meets_of_test
  exact ⟨s, hrun, congrArg Prod.fst hfinal, congrArg Prod.snd hfinal,
    (rings_agree negotiable_openConnector rfl hrun).1⟩

omit [Externals] in
/-- The list changes before the session has read `ShmSetup`: the first byte of the notification is
taken for the one that carries a descriptor, and the connecting fails. -/
theorem rings_disagree : letI : Externals := replies
    ∃ s, Run (step openConnector) (fun _ op => succeeds op = true)
        (.start openConnector openServer [] [])
        (listChange ++ [.handle AuthRuns.environment, .receiveFd]) s ∧
      s.client.phase = .failed (.text "no fd in cmsg") ∧ s.server.session.shm ≠ none ∧
        ¬ Agrees s := by
  let _ : Externals := replies
  obtain ⟨s, hexec, hfinal⟩ : ∃ s, exec (step openConnector) (fun _ op => succeeds op)
      (.start openConnector openServer [] [])
      (listChange ++ [.handle AuthRuns.environment, .receiveFd]) = some s ∧
        (s.client.phase, s.server.session.shm.isSome) = (.failed (.text "no fd in cmsg"), true) :=
    Option.map_eq_some_iff.mp (by decide +kernel)
  have hphase := congrArg Prod.fst hfinal
  refine ⟨s, run_of_exec hexec, hphase, ?_, fun hagrees => hagrees.alive _ hphase⟩
  exact Option.isSome_iff_ne_none.mp (congrArg Prod.snd hfinal)

end Negotiation

end Ohmcp
