import Ohmcp.Effects
import Ohmcp.ExactCodec

/-! Which ways of ending a session leave responses in the writer's buffer. -/

namespace Ohmcp

variable [Externals]

namespace Conn

/-! ### What a frame leaves in the buffer -/

omit [Externals] in
/-- A frame that is answered by nothing. -/
def Mute (session : Session) (frame : Frame) : Prop :=
  session.authenticated = true ∧ resultType frame.header.msgType = none ∧
    frame.header.msgType ≠ .shmSetup

section Effects

variable {env : Environment} {shared : Shared} {session : Session} {frame : Frame}
  {handled : Handled}

omit [Externals] in
theorem not_mute {result : MsgType} (hresult : resultType frame.header.msgType = some result) :
    ¬ Mute session frame := by
  rintro ⟨_, hnone, _⟩
  rw [hresult] at hnone
  cases hnone

/-- A frame after which the session goes on is mute and writes nothing, or it ends with a reply. -/
theorem actions_of_next (heffect : Effect env shared session frame handled)
    (hnext : handled.flow = .next) :
    (Mute session frame ∧ handled.actions = []) ∨
      (¬ Mute session frame ∧ ∃ actions reply, handled.actions = actions ++ [.queue reply]) := by
  cases heffect with
  | fails pipeline flow hkey hne => exact absurd hnext hne
  | rejects params hrejects => cases hnext
  | accepts params token nonce clientPub haccepts =>
      exact .inr ⟨not_mute (by rw [haccepts.msgType_eq]; rfl), [], _, rfl⟩
  | denies hauth htype =>
      refine .inr ⟨fun hmute => ?_, [], _, rfl⟩
      have htrue := hmute.1
      rw [hauth] at htrue
      cases htrue
  | setupFails hauth htype => cases hnext
  | setup pipeline shm shmUp bytes reply hauth htype =>
      exact .inr ⟨fun hmute => hmute.2.2 htype, _, reply, rfl⟩
  | replies pipeline reply result hauth hresult => exact .inr ⟨not_mute hresult, [], reply, rfl⟩
  | subscribes pipeline reply uri subscribed hauth hopens hsubscribed =>
      refine .inr ⟨?_, [], reply, rfl⟩
      rcases hsubscribed with ⟨htype, _⟩ | ⟨htype, _⟩
      · exact not_mute (by rw [htype]; rfl)
      · exact not_mute (by rw [htype]; rfl)
  | refusesSubscription pipeline reply uri hauth hopens htype =>
      exact .inr ⟨not_mute (by rw [htype]; rfl), [], reply, rfl⟩
  | cancels pipeline cancelled hauth htype =>
      exact .inl ⟨⟨hauth, by rw [htype]; rfl, by rw [htype]; decide⟩, rfl⟩
  | ignores hauth hresult htype => exact .inl ⟨⟨hauth, hresult, htype⟩, rfl⟩
  | callCancelled pipeline reply hauth htype =>
      exact .inr ⟨not_mute (by rw [htype]; rfl), [], reply, rfl⟩
  | callDenied pipeline notices reply params hauth htype =>
      exact .inr ⟨not_mute (by rw [htype]; rfl), _, reply, rfl⟩
  | called pipeline shm notices params sender hauth htype =>
      exact .inr ⟨not_mute (by rw [htype]; rfl), _, _, rfl⟩

/-- A frame that ends the session writes nothing, but for a rejection, which is queued, and a failing
setup, which flushes first. -/
theorem actions_of_stop (heffect : Effect env shared session frame handled)
    (hstop : handled.flow ≠ .next) :
    (handled.actions = [] ∧ (∀ params, ¬ Rejects shared frame params) ∧
        frame.header.msgType ≠ .shmSetup) ∨
      ((∃ reply, handled.actions = [.queue reply]) ∧ (∃ params, Rejects shared frame params) ∧
        frame.header.msgType ≠ .shmSetup) ∨
      (handled.actions = [.flush] ∧ session.authenticated = true ∧
        frame.header.msgType = .shmSetup) := by
  cases heffect with
  | fails pipeline flow hkey hne hreturned hrejects htype => exact .inl ⟨rfl, hrejects, htype⟩
  | rejects params hrejects =>
      exact .inr (.inl ⟨⟨_, rfl⟩, ⟨params, hrejects⟩, by rw [hrejects.msgType_eq]; decide⟩)
  | setupFails hauth htype => exact .inr (.inr ⟨rfl, hauth, htype⟩)
  | _ => exact absurd rfl hstop

end Effects

/-! ### The writer's buffer -/

omit [Externals] in
theorem core_act (conn : Conn) (action : Action) :
    (conn.act action).core = conn.core ∧ (conn.act action).flow = conn.flow := by
  cases action <;> exact ⟨rfl, rfl⟩

omit [Externals] in
theorem core_foldl_act (actions : List Action) (conn : Conn) :
    (actions.foldl act conn).core = conn.core ∧ (actions.foldl act conn).flow = conn.flow := by
  induction actions generalizing conn with
  | nil => exact ⟨rfl, rfl⟩
  | cons action actions ih =>
      obtain ⟨hcore, hflow⟩ := core_act conn action
      obtain ⟨hcore', hflow'⟩ := ih (conn.act action)
      exact ⟨hcore'.trans hcore, hflow'.trans hflow⟩

omit [Externals] in
theorem out_foldl_act_reply (actions : List Action) (reply : Frame) (conn : Conn) :
    ((actions ++ [Action.queue reply]).foldl act conn).out ≠ [] := by
  rw [List.foldl_append]
  exact List.append_ne_nil_of_right_ne_nil _ (Frame.encode_ne_nil reply)

theorem core_handle_flow (world : World) (conn : Conn) (frame : Frame) (rest : Bytes) :
    (conn.handle world frame rest).core = conn.core.next world frame ∧
      (conn.handle world frame rest).flow = (conn.core.handled world frame).flow :=
  core_foldl_act _ _

/-- The effect of a frame in the state it is handled in, or none where its reference is bad. -/
theorem effect_handled (world : World) (core : Core) (frame : Frame) :
    ((resolveUplink core.session frame).1.isOk = false ∧
      (core.handled world frame).actions = [] ∧ (core.handled world frame).flow ≠ .next) ∨
    ∃ shmUp resolved,
      resolveUplink core.session frame = (.ok resolved, { core.session with shmUp := shmUp }) ∧
      Effect (world.env core.turn) (world.others core.turn core.shared)
        { core.session with shmUp := shmUp } resolved (core.handled world frame) := by
  rcases handleFrame_cases (world.env core.turn) (world.others core.turn core.shared) core.session
    frame with ⟨shmUp, e, hresolve, hhandled⟩ | ⟨shmUp, resolved, hresolve, heffect⟩
  · refine .inl ⟨by rw [hresolve]; rfl, ?_, ?_⟩
    · rw [Core.handled, hhandled]
    · rw [Core.handled, hhandled]
      intro h
      cases h
  · exact .inr ⟨shmUp, resolved, hresolve, heffect⟩

/-- A frame after which the session goes on leaves the buffer empty if it was empty and the frame is
mute. -/
theorem out_handle_of_next {world : World} {conn : Conn} {frame : Frame} (rest : Bytes)
    (hnext : (conn.core.handled world frame).flow = .next) :
    (conn.handle world frame rest).out = [] ↔ conn.out = [] ∧ Mute conn.session frame := by
  rcases effect_handled world conn.core frame with ⟨_, _, hstop⟩ | ⟨shmUp, resolved, hresolve, heffect⟩
  · exact absurd hnext hstop
  have htype : resolved.header.msgType = frame.header.msgType := (resolveUplink_ok hresolve).1
  have hmute : Mute { conn.core.session with shmUp := shmUp } resolved ↔ Mute conn.session frame := by
    rw [Mute, Mute, htype]
    exact Iff.rfl
  have hout : (conn.handle world frame rest).out =
      ((conn.core.handled world frame).actions.foldl act { conn with
        shared := (conn.core.handled world frame).shared
        session := (conn.core.handled world frame).session
        buf := rest
        turn := conn.turn + 1
        flow := (conn.core.handled world frame).flow }).out := rfl
  rw [hout]
  rcases actions_of_next heffect hnext with ⟨hyes, hactions⟩ | ⟨hno, actions, reply, hactions⟩
  · rw [hactions, ← hmute]
    exact ⟨fun h => ⟨h, hyes⟩, fun h => h.1⟩
  · rw [hactions, ← hmute]
    exact iff_of_false (out_foldl_act_reply _ _ _) fun h => hno h.2

/-! ### A batch -/

/-- The session goes on after each of some frames. -/
def Continues (world : World) : Core → List Frame → Prop
  | _, [] => True
  | core, frame :: frames =>
      (core.handled world frame).flow = .next ∧ Continues world (core.next world frame) frames

/-- Each of some frames is mute in the state it is handled in. -/
def AllMute (world : World) : Core → List Frame → Prop
  | _, [] => True
  | core, frame :: frames =>
      Mute core.session frame ∧ AllMute world (core.next world frame) frames

theorem drain_of_frame {world : World} {conn : Conn} {frame : Frame} {rest : Bytes}
    (hflow : conn.flow = .next) (hdecode : Frame.decode conn.buf = (.ok (some frame), rest)) :
    conn.drain world = (conn.handle world frame rest).drain world := by
  rw [drain, if_pos hflow]
  split
  · next hthis =>
      rw [hdecode] at hthis
      cases hthis
      rfl
  · next hthis => rw [hdecode] at hthis; cases hthis
  · next hthis => rw [hdecode] at hthis; cases hthis

theorem drain_of_wait {world : World} {conn : Conn} {rest : Bytes} (hflow : conn.flow = .next)
    (hdecode : Frame.decode conn.buf = (.ok .none, rest)) : conn.drain world = conn.flush := by
  rw [drain, if_pos hflow]
  split
  · next hthis => rw [hdecode] at hthis; cases hthis
  · rfl
  · next hthis => rw [hdecode] at hthis; cases hthis

theorem drain_of_error {world : World} {conn : Conn} {e : CoreError} (hflow : conn.flow = .next)
    (hdecode : (Frame.decode conn.buf).1 = .error e) : conn.drain world = conn.fail (.core e) := by
  rw [drain, if_pos hflow]
  split
  · next hthis => rw [hthis] at hdecode; cases hdecode
  · next hthis => rw [hthis] at hdecode; cases hdecode
  · next hthis =>
      rw [hthis] at hdecode
      cases hdecode
      rfl

theorem drain_of_stop {world : World} {conn : Conn} {frame : Frame} {rest : Bytes}
    (hflow : conn.flow = .next) (hdecode : Frame.decode conn.buf = (.ok (some frame), rest))
    (hstop : (conn.core.handled world frame).flow ≠ .next) :
    conn.drain world = conn.handle world frame rest := by
  have hstopped : (conn.handle world frame rest).flow ≠ .next := by
    rw [(core_handle_flow world conn frame rest).2]
    exact hstop
  rw [drain_of_frame hflow hdecode, drain, if_neg hstopped]

/-- Some frames of the buffer are handled, and the session is still in its batch. -/
theorem exists_drain_eq {world : World} {frames : List Frame} (conn : Conn) {rest : Bytes}
    (hwf : ∀ frame ∈ frames, frame.WellFormed) (hflow : conn.flow = .next)
    (hbuf : conn.buf = Frame.encodeAll frames ++ rest) (hcontinues : Continues world conn.core frames) :
    ∃ conn' : Conn, conn.drain world = conn'.drain world ∧ conn'.flow = .next ∧ conn'.buf = rest ∧
      conn'.core = conn.core.run world frames ∧
      (conn'.out = [] ↔ conn.out = [] ∧ AllMute world conn.core frames) := by
  induction frames generalizing conn with
  | nil => exact ⟨conn, rfl, hflow, hbuf, rfl, (and_iff_left trivial).symm⟩
  | cons frame frames ih =>
      obtain ⟨hframe, hframes⟩ := List.forall_mem_cons.mp hwf
      obtain ⟨hnext, hrest⟩ := hcontinues
      rw [Frame.encodeAll_cons, List.append_assoc] at hbuf
      have hdecode : Frame.decode conn.buf = (.ok (some frame), Frame.encodeAll frames ++ rest) := by
        rw [hbuf, Frame.decode_encode_append hframe]
      obtain ⟨hcore, hflow'⟩ := core_handle_flow world conn frame (Frame.encodeAll frames ++ rest)
      obtain ⟨conn', hdrain, hgoes, hleft, hrun, hout⟩ := ih _ hframes (hflow'.trans hnext)
        (handle_buf ..) (hcore ▸ hrest)
      refine ⟨conn', ?_, hgoes, hleft, ?_, ?_⟩
      · rw [drain_of_frame hflow hdecode, hdrain]
      · rw [hrun, hcore]
        rfl
      · rw [hout, out_handle_of_next _ hnext, hcore, and_assoc]
        rfl

/-! ### The end of a session -/

/-- What a session is ended by. -/
inductive Cause where
  /-- The end of the stream or the shutdown signal, while the session waits. -/
  | idle
  /-- A frame of a batch, after some others. -/
  | frame (earlier : List Frame) (last : Frame)
  /-- Bytes that are no frame, after some frames of the batch. -/
  | undecodable (earlier : List Frame)

/-- The next input ends the session for a cause. -/
inductive Ends (world : World) (conn : Conn) : Input → Cause → Prop where
  | eof : Ends world conn (.read []) .idle
  | shutdown : Ends world conn .shutdown .idle
  | frame {chunk : Bytes} (earlier : List Frame) (last : Frame) (rest : Bytes) (hchunk : chunk ≠ [])
      (hwf : ∀ frame ∈ earlier ++ [last], frame.WellFormed)
      (hbuf : conn.buf ++ chunk = Frame.encodeAll earlier ++ (last.encode ++ rest))
      (hcontinues : Continues world conn.core earlier)
      (hstops : ((conn.core.run world earlier).handled world last).flow ≠ .next) :
      Ends world conn (.read chunk) (.frame earlier last)
  | undecodable {chunk : Bytes} (earlier : List Frame) (bad : Bytes) (e : CoreError)
      (hchunk : chunk ≠ []) (hwf : ∀ frame ∈ earlier, frame.WellFormed)
      (hbuf : conn.buf ++ chunk = Frame.encodeAll earlier ++ bad)
      (hcontinues : Continues world conn.core earlier) (hbad : (Frame.decode bad).1 = .error e) :
      Ends world conn (.read chunk) (.undecodable earlier)

/-- The uplink reference of the frame resolves, and the frame is an `Auth` that is rejected in due
form. -/
def Rejected (world : World) (core : Core) (frame : Frame) : Prop :=
  ∃ resolved session, resolveUplink core.session frame = (.ok resolved, session) ∧
    ∃ params, Rejects (world.others core.turn core.shared) resolved params

/-- The uplink reference of the frame resolves, and the frame is an `ShmSetup` behind the gate. -/
def SetsUp (core : Core) (frame : Frame) : Prop :=
  frame.header.msgType = .shmSetup ∧ core.session.authenticated = true ∧
    (resolveUplink core.session frame).1.isOk = true

/-- The causes that leave nothing queued: the session waits; or it is ended by a frame or by bytes
within a batch, every earlier frame of the batch was mute, and the frame is no rejected `Auth`; or
the frame is an `ShmSetup`, which flushes before it fails. -/
def AllSent (world : World) (conn : Conn) : Cause → Prop
  | .idle => True
  | .frame earlier last =>
      SetsUp (conn.core.run world earlier) last ∨
        AllMute world conn.core earlier ∧ ¬ Rejected world (conn.core.run world earlier) last
  | .undecodable earlier => AllMute world conn.core earlier

section Stops

variable {world : World} {conn : Conn}

theorem wake_read (hflow : conn.flow = .next) {chunk : Bytes} (hchunk : chunk ≠ []) :
    conn.wake world (.read chunk) = conn.receive world chunk := by
  rw [wake, if_pos hflow]
  exact if_neg hchunk

theorem wake_eof (hflow : conn.flow = .next) : conn.wake world (.read []) = conn.close := by
  rw [wake, if_pos hflow]
  exact if_pos rfl

theorem wake_shutdown (hflow : conn.flow = .next) :
    conn.wake world .shutdown = { conn.flush with flow := .returned } := by
  rw [wake, if_pos hflow]

theorem wake_event (hflow : conn.flow = .next) (event : ResourceEvent) :
    conn.wake world (.event event) = conn.notify event := by
  rw [wake, if_pos hflow]

theorem wake_of_ended (hflow : conn.flow ≠ .next) (input : Input) :
    conn.wake world input = conn := by
  unfold wake
  exact if_neg hflow

theorem flow_notify (conn : Conn) (event : ResourceEvent) :
    (conn.notify event).flow = conn.flow := by
  rw [notify]
  split <;> rfl

omit [Externals] in
theorem out_close (hout : conn.out = []) : conn.close.out = [] := by
  rw [close]
  split
  · rfl
  · exact hout

/-- What the last frame leaves in the buffer. -/
theorem out_handle_of_stop {frame : Frame} (rest : Bytes)
    (hstop : (conn.core.handled world frame).flow ≠ .next) :
    (conn.handle world frame rest).out = [] ↔
      SetsUp conn.core frame ∨ conn.out = [] ∧ ¬ Rejected world conn.core frame := by
  have hout : (conn.handle world frame rest).out =
      ((conn.core.handled world frame).actions.foldl act { conn with
        shared := (conn.core.handled world frame).shared
        session := (conn.core.handled world frame).session
        buf := rest
        turn := conn.turn + 1
        flow := (conn.core.handled world frame).flow }).out := rfl
  rw [hout]
  rcases effect_handled world conn.core frame with
    ⟨hbad, hactions, _⟩ | ⟨shmUp, resolved, hresolve, heffect⟩
  · have hsetup : ¬ SetsUp conn.core frame := by
      rintro ⟨_, _, hok⟩
      rw [hbad] at hok
      cases hok
    have hrejected : ¬ Rejected world conn.core frame := by
      rintro ⟨resolved, session, hresolve, _⟩
      rw [hresolve] at hbad
      cases hbad
    rw [hactions]
    exact ⟨fun h => .inr ⟨h, hrejected⟩, fun h => h.elim (fun h => absurd h hsetup) fun h => h.1⟩
  have htype : resolved.header.msgType = frame.header.msgType := (resolveUplink_ok hresolve).1
  have hsetup : SetsUp conn.core frame ↔
      conn.core.session.authenticated = true ∧ resolved.header.msgType = .shmSetup := by
    rw [SetsUp, hresolve, htype]
    exact ⟨fun h => ⟨h.2.1, h.1⟩, fun h => ⟨h.2, h.1, rfl⟩⟩
  have hrejected : Rejected world conn.core frame ↔
      ∃ params, Rejects (world.others conn.core.turn conn.core.shared) resolved params := by
    constructor
    · rintro ⟨resolved', session, hresolve', hrejects⟩
      rw [hresolve] at hresolve'
      cases hresolve'
      exact hrejects
    · exact fun hrejects => ⟨resolved, _, hresolve, hrejects⟩
  rw [hsetup, hrejected]
  rcases actions_of_stop heffect hstop with
    ⟨hactions, hno, hne⟩ | ⟨⟨reply, hactions⟩, hyes, hne⟩ | ⟨hactions, hauth, hsets⟩
  · rw [hactions]
    exact ⟨fun h => .inr ⟨h, fun ⟨params, hparams⟩ => hno params hparams⟩,
      fun h => h.elim (fun h => absurd h.2 hne) fun h => h.1⟩
  · rw [hactions]
    exact iff_of_false (out_foldl_act_reply [] reply _)
      fun h => h.elim (fun h => hne h.2) fun h => h.2 hyes
  · rw [hactions]
    exact iff_of_true rfl (.inl ⟨hauth, hsets⟩)

/-- While a batch is handled, the session either goes on and is flushed, or there is a cause. -/
theorem exists_cause_of_drain (conn : Conn) (hflow : conn.flow = .next)
    (hstops : (conn.drain world).flow ≠ .next) :
    ∃ earlier, (∀ frame ∈ earlier, frame.WellFormed) ∧ Continues world conn.core earlier ∧
      ((∃ last rest, last.WellFormed ∧
          conn.buf = Frame.encodeAll earlier ++ (last.encode ++ rest) ∧
          ((conn.core.run world earlier).handled world last).flow ≠ .next) ∨
        ∃ bad e, conn.buf = Frame.encodeAll earlier ++ bad ∧ (Frame.decode bad).1 = .error e) := by
  induction hlen : conn.buf.length using Nat.strong_induction_on generalizing conn with
  | h len ih =>
      subst hlen
      rcases hdecode : Frame.decode conn.buf with ⟨e | frame, rest⟩
      · exact ⟨[], fun _ h => absurd h List.not_mem_nil, trivial,
          .inr ⟨conn.buf, e, rfl, by rw [hdecode]⟩⟩
      cases frame with
      | none =>
          rw [drain_of_wait hflow hdecode] at hstops
          exact absurd hflow hstops
      | some frame =>
          obtain ⟨hwf, hbuf⟩ := Frame.of_decode_some hdecode
          by_cases hnext : (conn.core.handled world frame).flow = .next
          · obtain ⟨hcore, hgoes⟩ := core_handle_flow world conn frame rest
            have hdrain : conn.drain world = (conn.handle world frame rest).drain world :=
              drain_of_frame hflow hdecode
            have hshort : (conn.handle world frame rest).buf.length < conn.buf.length := by
              rw [handle_buf]
              exact Frame.length_lt_of_decode hdecode
            obtain ⟨earlier, hwfs, hcontinues, hcause⟩ := ih _ hshort
              (conn.handle world frame rest) (hgoes.trans hnext) (hdrain ▸ hstops) rfl
            rw [handle_buf, hcore] at hcause
            refine ⟨frame :: earlier, List.forall_mem_cons.mpr ⟨hwf, hwfs⟩,
              ⟨hnext, hcore ▸ hcontinues⟩, ?_⟩
            rcases hcause with ⟨last, rest', hlast, hrest, hstop⟩ | ⟨bad, e, hrest, hbad⟩
            · exact .inl ⟨last, rest', hlast,
                by rw [hbuf, hrest, Frame.encodeAll_cons, List.append_assoc], hstop⟩
            · exact .inr ⟨bad, e, by rw [hbuf, hrest, Frame.encodeAll_cons, List.append_assoc], hbad⟩
          · exact ⟨[], fun _ h => absurd h List.not_mem_nil, trivial,
              .inl ⟨frame, rest, hwf, hbuf, hnext⟩⟩

theorem out_drain (conn : Conn) (hflow : (conn.drain world).flow = .next) :
    (conn.drain world).out = [] := by
  induction hlen : conn.buf.length using Nat.strong_induction_on generalizing conn with
  | h len ih =>
      subst hlen
      by_cases hnext : conn.flow = .next
      · rcases hdecode : Frame.decode conn.buf with ⟨e | frame, rest⟩
        · rw [drain_of_error hnext (by rw [hdecode])] at hflow
          cases hflow
        · cases frame with
          | none =>
              rw [drain_of_wait hnext hdecode]
              rfl
          | some frame =>
              rw [drain_of_frame hnext hdecode] at hflow ⊢
              refine ih _ ?_ _ hflow rfl
              rw [handle_buf]
              exact Frame.length_lt_of_decode hdecode
      · rw [drain, if_neg hnext] at hflow
        exact absurd hflow hnext

/-- A session that waits has nothing queued, so a read is the beginning of a batch. -/
theorem receive_eq_drain (hflow : conn.flow = .next) (hout : conn.out = []) (chunk : Bytes) :
    conn.receive world chunk = { conn with buf := conn.buf ++ chunk }.drain world := by
  rcases hdecode : Frame.decode (conn.buf ++ chunk) with ⟨e | frame, rest⟩
  · rw [drain_of_error (by exact hflow) (by rw [hdecode]), receive]
    dsimp only
    rw [hdecode]
  · cases frame with
    | none =>
        rw [drain_of_wait (by exact hflow) hdecode, receive]
        dsimp only
        rw [hdecode, flush, hout, List.append_nil, ← hout]
    | some frame =>
        rw [drain_of_frame (by exact hflow) hdecode, receive]
        dsimp only
        rw [hdecode]

/-- Whenever a session waits, it has nothing queued. -/
theorem out_of_waiting (world : World) (shared : Shared) (inputs : List Input)
    (hflow : (inputs.foldl (wake world) (new shared)).flow = .next) :
    (inputs.foldl (wake world) (new shared)).out = [] := by
  induction inputs using List.reverseRecOn with
  | nil => rfl
  | append_singleton inputs input ih =>
      rw [List.foldl_append] at hflow ⊢
      change (wake world _ input).flow = .next at hflow
      change (wake world _ input).out = []
      by_cases hnext : (inputs.foldl (wake world) (new shared)).flow = .next
      · have hout := ih hnext
        cases input with
        | read chunk =>
            by_cases hchunk : chunk = []
            · subst hchunk
              rw [wake_eof hnext]
              exact out_close hout
            · rw [wake_read hnext hchunk, receive_eq_drain hnext hout] at hflow ⊢
              exact out_drain _ hflow
        | shutdown =>
            rw [wake_shutdown hnext] at hflow
            cases hflow
        | event event =>
            rw [wake_event hnext, notify]
            split
            · rfl
            · exact hout
      · rw [wake_of_ended hnext] at hflow
        exact absurd hflow hnext

/-- Every end of a session has a cause. -/
theorem exists_cause (hflow : conn.flow = .next) (hout : conn.out = []) (input : Input)
    (hstops : (conn.wake world input).flow ≠ .next) : ∃ cause, Ends world conn input cause := by
  cases input with
  | read chunk =>
      by_cases hchunk : chunk = []
      · subst hchunk
        exact ⟨.idle, .eof⟩
      · rw [wake_read hflow hchunk, receive_eq_drain hflow hout] at hstops
        obtain ⟨earlier, hwf, hcontinues, hcause⟩ := exists_cause_of_drain
          { conn with buf := conn.buf ++ chunk } hflow hstops
        rcases hcause with ⟨last, rest, hlast, hbuf, hstop⟩ | ⟨bad, e, hbuf, hbad⟩
        · refine ⟨.frame earlier last, .frame earlier last rest hchunk ?_ hbuf hcontinues hstop⟩
          exact List.forall_mem_append.mpr ⟨hwf, List.forall_mem_singleton.mpr hlast⟩
        · exact ⟨.undecodable earlier, .undecodable earlier bad e hchunk hwf hbuf hcontinues hbad⟩
  | shutdown => exact ⟨.idle, .shutdown⟩
  | event event =>
      rw [wake_event hflow, flow_notify] at hstops
      exact absurd hflow hstops

/-- The cause tells whether everything is sent. -/
theorem out_eq_nil_iff (hflow : conn.flow = .next) (hout : conn.out = []) {input : Input}
    {cause : Cause} (hends : Ends world conn input cause) :
    (conn.wake world input).out = [] ↔ AllSent world conn cause := by
  cases hends with
  | eof =>
      rw [wake_eof hflow]
      exact iff_of_true (out_close hout) trivial
  | shutdown =>
      rw [wake_shutdown hflow]
      exact iff_of_true rfl trivial
  | @frame chunk earlier last rest hchunk hwf hbuf hcontinues hstops =>
      obtain ⟨hearlier, hlast⟩ := List.forall_mem_append.mp hwf
      rw [wake_read hflow hchunk, receive_eq_drain hflow hout]
      obtain ⟨conn', hdrain, hgoes, hleft, hrun, hempty⟩ :=
        exists_drain_eq { conn with buf := conn.buf ++ chunk } hearlier hflow hbuf hcontinues
      have hdecode : Frame.decode conn'.buf = (.ok (some last), rest) := by
        rw [hleft, Frame.decode_encode_append (hlast last (List.mem_singleton_self last))]
      have hcore : conn'.core = conn.core.run world earlier := hrun
      have hquiet : conn'.out = [] ↔ AllMute world conn.core earlier :=
        hempty.trans (and_iff_right hout)
      rw [← hcore] at hstops
      rw [hdrain, drain_of_stop hgoes hdecode hstops, out_handle_of_stop rest hstops, hquiet,
        AllSent, ← hcore]
  | @undecodable chunk earlier bad e hchunk hwf hbuf hcontinues hbad =>
      rw [wake_read hflow hchunk, receive_eq_drain hflow hout]
      obtain ⟨conn', hdrain, hgoes, hleft, _, hempty⟩ :=
        exists_drain_eq { conn with buf := conn.buf ++ chunk } hwf hflow hbuf hcontinues
      have hdecode : (Frame.decode conn'.buf).1 = .error e := by
        rw [hleft]
        exact hbad
      rw [hdrain, drain_of_error hgoes hdecode]
      exact hempty.trans (and_iff_right hout)

/-- A cause ends the session. -/
theorem Ends.stops (hflow : conn.flow = .next) (hout : conn.out = []) {input : Input} {cause : Cause}
    (hends : Ends world conn input cause) : (conn.wake world input).flow ≠ .next := by
  cases hends with
  | eof =>
      rw [wake_eof hflow, close]
      split_ifs
      · exact Flow.noConfusion
      · exact Flow.noConfusion
  | shutdown =>
      rw [wake_shutdown hflow]
      exact Flow.noConfusion
  | @frame chunk earlier last rest hchunk hwf hbuf hcontinues hstops =>
      obtain ⟨hearlier, hlast⟩ := List.forall_mem_append.mp hwf
      rw [wake_read hflow hchunk, receive_eq_drain hflow hout]
      obtain ⟨conn', hdrain, hgoes, hleft, hrun, _⟩ :=
        exists_drain_eq { conn with buf := conn.buf ++ chunk } hearlier hflow hbuf hcontinues
      have hdecode : Frame.decode conn'.buf = (.ok (some last), rest) := by
        rw [hleft, Frame.decode_encode_append (hlast last (List.mem_singleton_self last))]
      have hcore : conn'.core = conn.core.run world earlier := hrun
      rw [← hcore] at hstops
      rw [hdrain, drain_of_stop hgoes hdecode hstops, (core_handle_flow ..).2]
      exact hstops
  | @undecodable chunk earlier bad e hchunk hwf hbuf hcontinues hbad =>
      rw [wake_read hflow hchunk, receive_eq_drain hflow hout]
      obtain ⟨conn', hdrain, hgoes, hleft, _⟩ :=
        exists_drain_eq { conn with buf := conn.buf ++ chunk } hwf hflow hbuf hcontinues
      rw [hdrain, drain_of_error hgoes (by rw [hleft, hbad])]
      exact Flow.noConfusion

end Stops

/-- **Unsent responses.** A session that ends has a cause, and everything it queued is sent exactly
when the cause is of those that leave nothing queued. -/
theorem all_sent_iff {world : World} {shared : Shared} (inputs : List Input) {input : Input}
    {conn : Conn} (hconn : inputs.foldl (wake world) (new shared) = conn)
    (hflow : conn.flow = .next) (hstops : (conn.wake world input).flow ≠ .next) :
    (∃ cause, Ends world conn input cause) ∧
      ∀ cause, Ends world conn input cause →
        ((conn.wake world input).out = [] ↔ AllSent world conn cause) := by
  have hout : conn.out = [] := by
    subst hconn
    exact out_of_waiting world shared inputs hflow
  exact ⟨exists_cause hflow hout input hstops, fun cause hends => out_eq_nil_iff hflow hout hends⟩

/-- A frame no client sends is ignored. -/
theorem handled_stray {world : World} {core : Core} (hauth : core.session.authenticated = true) :
    core.handled world (.new .pong 9 []) =
      proceed (world.others core.turn core.shared) core.session := by
  have hinline : (Frame.new .pong 9 []).header.flags.shmRef = false := by decide
  rw [Core.handled, handleFrame_of_ok (resolveUplink_inline core.session hinline)]
  simp only [dispatch, hauth, Frame.new]

omit [Externals] in
/-- Two pings in one read are answered. A second read holds a frame that needs no answer and bytes that
are no frame: they end the session, and everything it queued is sent. -/
theorem all_sent_iff_batch :
    letI : Externals := .plain
    let idle : Conn := .new ⟨.new, .new 1 1, .new, none⟩
    let conn := idle.wake .still (.read (Frame.encodeAll [.new .ping 7 [], .new .ping 8 []]))
    let input : Input := .read ((Frame.new .pong 9 []).encode ++ List.replicate 17 0)
    conn.sent = Frame.encodeAll [.new .pong 7 (utf8 "{}"), .new .pong 8 (utf8 "{}")] ∧
      Ends .still conn input (.undecodable [.new .pong 9 []]) ∧ (conn.wake .still input).out = [] := by
  let _ : Externals := .plain
  intro idle conn input
  have hconn : conn = idle.after .still [.new .ping 7 [], .new .ping 8 []] [] := by
    refine (wake_read rfl (by decide)).trans ?_
    exact receive_eq (by decide) Frame.incomplete_nil ⟨⟨rfl, [_], rfl⟩, ⟨rfl, [_], rfl⟩, trivial⟩
      ⟨rfl, rfl, Frame.incomplete_nil⟩ (List.append_nil _).symm
  have hflow : conn.flow = .next := congrArg Conn.flow hconn
  have hbuf : conn.buf = [] := congrArg Conn.buf hconn
  have hauth : conn.session.authenticated = true := by
    rw [hconn]
    rfl
  have hbad : (Frame.decode (List.replicate 17 0)).1 = .error .badMagic := by decide
  have hends : Ends .still conn input (.undecodable [.new .pong 9 []]) := by
    refine .undecodable _ (List.replicate 17 0) .badMagic (by decide) (by decide) ?_ ⟨?_, trivial⟩ hbad
    · rw [hbuf]
      rfl
    · rw [handled_stray hauth]
      rfl
  have hwaits : conn.out = [] := congrArg Conn.out hconn
  have hreached : [Input.read (Frame.encodeAll [.new .ping 7 [], .new .ping 8 []])].foldl (wake .still)
      (new ⟨.new, .new 1 1, .new, none⟩) = conn := rfl
  have hsent := (all_sent_iff _ hreached hflow (hends.stops hflow hwaits)).2 _ hends
  exact ⟨congrArg Conn.sent hconn, hends, hsent.mpr ⟨⟨hauth, rfl, by decide⟩, trivial⟩⟩

omit [Externals] in
/-- A ping and, in the same read, bytes that are no frame: the answer to the ping is never sent. -/
theorem pong_unsent :
    letI : Externals := .plain
    let conn : Conn := .new ⟨.new, .new 1 1, .new, none⟩
    let input : Input := .read ((Frame.new .ping 7 []).encode ++ List.replicate 17 0)
    (conn.wake .still input).flow = .failed (.core .badMagic) ∧
      (conn.wake .still input).out = (Frame.new .pong 7 (utf8 "{}")).encode ∧
      (conn.wake .still input).sent = [] := by
  let _ : Externals := .plain
  let input : Input := .read ((Frame.new .ping 7 []).encode ++ List.replicate 17 0)
  let begun : Conn :=
    { new ⟨.new, .new 1 1, .new, none⟩ with
      buf := (Frame.new .ping 7 []).encode ++ List.replicate 17 0 }
  have hdecode : Frame.decode begun.buf = (.ok (some (.new .ping 7 [])), List.replicate 17 0) :=
    Frame.decode_encode_append (by decide) _
  have hbad : (Frame.decode (List.replicate 17 0)).1 = .error .badMagic := by decide
  have hwake : (new ⟨.new, .new 1 1, .new, none⟩).wake .still input =
      (begun.handle .still (.new .ping 7 []) (List.replicate 17 0)).fail (.core .badMagic) := by
    rw [wake_read rfl (by decide), receive_eq_drain rfl rfl]
    change begun.drain .still = _
    rw [drain_of_frame rfl hdecode, drain_of_error rfl (by rw [handle_buf]; exact hbad)]
  exact ⟨(congrArg Conn.flow hwake).trans rfl, (congrArg Conn.out hwake).trans rfl,
    (congrArg Conn.sent hwake).trans rfl⟩

end Conn

end Ohmcp
