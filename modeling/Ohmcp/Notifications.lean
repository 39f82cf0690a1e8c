import Ohmcp.Live

/-! The notifications of one session: each has its own event and a subscription that stands, and an
update of a subscribed resource leads to one unless its event is overwritten before the session
comes to it. -/

open Transition

namespace Ohmcp

variable [Externals]

namespace Live

/-! ### Subscriptions as the history tells them -/

/-- The uri of a subscription request, as the session reads it. -/
def subscriptionUri (env : Environment) (session : Session) (frame : Frame) : Option String :=
  match resolveUplink session frame with
  | (.ok resolved, session) =>
      match (session.pipeline.unwrap env.now resolved).1 with
      | .ok data =>
          (Externals.fromSlice .subscribeResourceParams data).map SubscribeResourceParams.uri
      | .error _ => none
  | (.error _, _) => none

namespace Entry

/-- Some frame of the turn is a `SubscribeResourceResult`. -/
def confirmed (entry : Entry) : Bool :=
  entry.frames.any fun frame => frame.header.msgType = .subscribeResourceResult

/-- Whether the turn subscribed to a uri or unsubscribed from it, and said so. -/
def subscription (uri : String) (entry : Entry) : Option Bool :=
  match entry with
  | handled env _ session frame =>
      if subscriptionUri env session frame = some uri ∧ entry.confirmed = true then
        match frame.header.msgType with
        | .subscribeResource => some true
        | .unsubscribeResource => some false
        | _ => none
      else none
  | notified _ _ _ _ => none

/-- The number of the event a turn is about. -/
def index : Entry → Option Nat
  | handled _ _ _ _ => none
  | notified _ index _ _ => some index

end Entry

/-- Whether the last confirmed request for a uri subscribed to it. -/
def lastSubscription (uri : String) (log : List Entry) : Option Bool :=
  log.reverse.findSome? (Entry.subscription uri)

theorem lastSubscription_snoc (uri : String) (log : List Entry) (entry : Entry) :
    lastSubscription uri (log ++ [entry]) =
      (entry.subscription uri).or (lastSubscription uri log) := by
  rw [lastSubscription, List.reverse_append, List.reverse_singleton, List.singleton_append,
    List.findSome?_cons]
  cases entry.subscription uri <;> rfl

/-! ### One frame -/

section Frames

variable {env : Environment} {shared : Shared} {session : Session} {frame : Frame}

theorem subscriptionUri_of_opens {resolved : Frame} {shmUp : Option ShmRing} {uri : String}
    (hresolve : resolveUplink session frame = (.ok resolved, { session with shmUp := shmUp }))
    (hopens : Opens .subscribeResourceParams env.now { session with shmUp := shmUp } resolved ⟨uri⟩) :
    subscriptionUri env session frame = some uri := by
  obtain ⟨data, hdata, hparams⟩ := hopens
  rw [subscriptionUri, hresolve]
  dsimp only at hdata ⊢
  rw [hdata]
  dsimp only
  rw [hparams]
  rfl

theorem subscription_of_type (hsub : frame.header.msgType ≠ .subscribeResource)
    (hunsub : frame.header.msgType ≠ .unsubscribeResource) (uri : String) :
    (Entry.handled env shared session frame).subscription uri = none := by
  rw [Entry.subscription]
  split_ifs
  · split
    · contradiction
    · contradiction
    · rfl
  · rfl

theorem subscription_of_unconfirmed
    (hconfirmed : (Entry.handled env shared session frame).confirmed = false) (uri : String) :
    (Entry.handled env shared session frame).subscription uri = none := by
  rw [Entry.subscription, hconfirmed, if_neg (fun h => Bool.false_ne_true h.2)]

/-- A frame leaves the subscriptions as they are, or it is a request that changes one of them and is
confirmed. -/
theorem subscribed_cases (env : Environment) (shared : Shared) (session : Session) (frame : Frame) :
    ((handleFrame env shared session frame).session.subscribed = session.subscribed ∧
        ∀ uri, (Entry.handled env shared session frame).subscription uri = none) ∨
      ∃ uri, subscriptionUri env session frame = some uri ∧
        (Entry.handled env shared session frame).confirmed = true ∧
        (frame.header.msgType = .subscribeResource ∧
            (handleFrame env shared session frame).session.subscribed =
              insert uri session.subscribed ∨
          frame.header.msgType = .unsubscribeResource ∧
            (handleFrame env shared session frame).session.subscribed =
              session.subscribed.erase uri) := by
  have hframes : (Entry.handled env shared session frame).frames =
      Conn.queued (handleFrame env shared session frame).actions := rfl
  rcases handleFrame_cases env shared session frame with
    ⟨shmUp, e, hresolve, hhandled⟩ | ⟨shmUp, resolved, hresolve, heffect⟩
  · refine .inl ⟨by rw [hhandled], subscription_of_unconfirmed ?_⟩
    rw [Entry.confirmed, hframes, hhandled]
    rfl
  have htype : resolved.header.msgType = frame.header.msgType := (resolveUplink_ok hresolve).1
  have hother : ∀ {msgType : MsgType}, resolved.header.msgType = msgType →
      msgType ≠ .subscribeResource → msgType ≠ .unsubscribeResource →
      ∀ uri, (Entry.handled env shared session frame).subscription uri = none := by
    intro msgType hmsgType hsub hunsub
    rw [htype] at hmsgType
    exact subscription_of_type (by rw [hmsgType]; exact hsub) (by rw [hmsgType]; exact hunsub)
  generalize hhandled : handleFrame env shared session frame = handled at heffect hframes
  have hquiet : Conn.queued handled.actions = [] →
      ∀ uri, (Entry.handled env shared session frame).subscription uri = none := by
    intro hnil
    refine subscription_of_unconfirmed ?_
    rw [Entry.confirmed, hframes, hnil]
    rfl
  have hone : ∀ {reply : Frame} {msgType : MsgType}, Conn.queued handled.actions = [reply] →
      Plain msgType reply → msgType ≠ .subscribeResourceResult →
      ∀ uri, (Entry.handled env shared session frame).subscription uri = none := by
    intro reply msgType hqueued hplain hne
    refine subscription_of_unconfirmed ?_
    rw [Entry.confirmed, hframes, hqueued, List.any_cons, List.any_nil, Bool.or_false,
      hplain.msgType_eq]
    exact decide_eq_false hne
  cases heffect with
  | fails => exact .inl ⟨rfl, hquiet rfl⟩
  | rejects params hrejects => exact .inl ⟨rfl, hother hrejects.msgType_eq (by decide) (by decide)⟩
  | accepts params token nonce clientPub haccepts =>
      exact .inl ⟨rfl, hother haccepts.msgType_eq (by decide) (by decide)⟩
  | denies hauth hne => exact .inl ⟨rfl, hone rfl (plain_wrap _ .error _ _) (by decide)⟩
  | setupFails hauth hmsgType => exact .inl ⟨rfl, hother hmsgType (by decide) (by decide)⟩
  | setup pipeline shm shmUp bytes reply hauth hmsgType =>
      exact .inl ⟨rfl, hother hmsgType (by decide) (by decide)⟩
  | replies pipeline reply result hauth hresult hne =>
      exact .inl ⟨rfl, hother rfl hne.2.2.1 hne.2.2.2⟩
  | subscribes pipeline reply uri subscribed hauth hopens hsubscribed hkey hplain =>
      refine .inr ⟨uri, subscriptionUri_of_opens hresolve hopens, ?_, ?_⟩
      · rw [Entry.confirmed, hframes]
        change ([reply].any _) = true
        rw [List.any_cons, List.any_nil, Bool.or_false, hplain.msgType_eq]
        rfl
      · rw [htype] at hsubscribed
        rcases hsubscribed with ⟨hsub, _, hinsert⟩ | ⟨hunsub, herase⟩
        · exact .inl ⟨hsub, hinsert⟩
        · exact .inr ⟨hunsub, herase⟩
  | refusesSubscription pipeline reply uri hauth hopens hmsgType hmissing hkey hplain =>
      exact .inl ⟨rfl, hone rfl hplain (by decide)⟩
  | cancels => exact .inl ⟨rfl, hquiet rfl⟩
  | ignores => exact .inl ⟨rfl, hquiet rfl⟩
  | callCancelled pipeline reply hauth hmsgType =>
      exact .inl ⟨rfl, hother hmsgType (by decide) (by decide)⟩
  | callDenied pipeline notices reply params hauth hmsgType =>
      exact .inl ⟨rfl, hother hmsgType (by decide) (by decide)⟩
  | called pipeline shm notices params sender hauth hmsgType =>
      exact .inl ⟨rfl, hother hmsgType (by decide) (by decide)⟩

/-- The last confirmed request decides, before a frame and after it. -/
theorem mem_subscribed_handleFrame (uri : String) {log : List Entry}
    (hlast : uri ∈ session.subscribed ↔ lastSubscription uri log = some true) :
    uri ∈ (handleFrame env shared session frame).session.subscribed ↔
      lastSubscription uri (log ++ [.handled env shared session frame]) = some true := by
  rw [lastSubscription_snoc]
  rcases subscribed_cases env shared session frame with
    ⟨hsame, hnone⟩ | ⟨own, huri, hconfirmed, hchange⟩
  · rw [hsame, hnone, Option.none_or]
    exact hlast
  by_cases heq : uri = own
  · subst heq
    rw [Entry.subscription, if_pos ⟨huri, hconfirmed⟩]
    rcases hchange with ⟨htype, hsubscribed⟩ | ⟨htype, hsubscribed⟩
    · rw [htype, hsubscribed]
      exact iff_of_true (Finset.mem_insert_self _ _) rfl
    · rw [htype, hsubscribed]
      exact iff_of_false (Finset.notMem_erase _ _) (by rintro ⟨⟩)
  · have hnone : (Entry.handled env shared session frame).subscription uri = none := by
      rw [Entry.subscription, if_neg]
      rintro ⟨hother, _⟩
      rw [huri] at hother
      exact heq (Option.some.inj hother).symm
    rw [hnone, Option.none_or, ← hlast]
    rcases hchange with ⟨_, hsubscribed⟩ | ⟨_, hsubscribed⟩
    · rw [hsubscribed, Finset.mem_insert]
      exact or_iff_right heq
    · rw [hsubscribed, Finset.mem_erase]
      exact and_iff_right heq

/-- No answer to a frame is a notification. -/
theorem not_notification_of_mem {reply : Frame}
    (hreply : reply ∈ (Entry.handled env shared session frame).frames) :
    reply.header.msgType ≠ .resourceUpdated ∧ reply.header.msgType ≠ .resourceListChanged := by
  have hframes : (Entry.handled env shared session frame).frames =
      Conn.queued (handleFrame env shared session frame).actions := rfl
  rw [hframes] at hreply
  rcases handleFrame_cases env shared session frame with
    ⟨shmUp, e, hresolve, hhandled⟩ | ⟨shmUp, resolved, hresolve, heffect⟩
  · rw [hhandled] at hreply
    exact absurd hreply List.not_mem_nil
  rcases heffect.queued_cases hreply with ⟨msgType, hmem, hplain⟩ | ⟨_, htype | htype⟩
  · have hdiffer : ∀ msgType ∈ replyTypes,
        msgType ≠ .resourceUpdated ∧ msgType ≠ .resourceListChanged := by decide
    rw [hplain.msgType_eq]
    exact hdiffer msgType hmem
  · rw [htype]
    decide
  · rw [htype]
    decide

/-- A subscription that is not confirmed leaves the session as it is, but for the layers that
opened its frame and wrapped the answer. -/
theorem session_of_unconfirmed (htype : frame.header.msgType = .subscribeResource)
    (hunconfirmed : (Entry.handled env shared session frame).confirmed = false) :
    (handleFrame env shared session frame).shared = shared ∧
      ∃ pipeline shmUp, pipeline.cipherKey = session.pipeline.cipherKey ∧
        (handleFrame env shared session frame).session =
          { session with pipeline := pipeline, shmUp := shmUp } := by
  have hframes : (Entry.handled env shared session frame).frames =
      Conn.queued (handleFrame env shared session frame).actions := rfl
  rcases handleFrame_cases env shared session frame with
    ⟨shmUp, e, hresolve, hhandled⟩ | ⟨shmUp, resolved, hresolve, heffect⟩
  · rw [hhandled]
    exact ⟨rfl, session.pipeline, shmUp, rfl, rfl⟩
  rw [← (resolveUplink_ok hresolve).1] at htype
  have hother : ∀ {msgType : MsgType} {p : Prop}, resolved.header.msgType = msgType →
      msgType ≠ .subscribeResource → p := by
    intro msgType p hmsgType hne
    exact absurd (hmsgType.symm.trans htype) hne
  generalize handleFrame env shared session frame = handled at heffect hframes
  cases heffect with
  | fails pipeline flow hkey => exact ⟨rfl, pipeline, shmUp, hkey, rfl⟩
  | rejects params hrejects => exact hother hrejects.msgType_eq (by decide)
  | accepts params token nonce clientPub haccepts => exact hother haccepts.msgType_eq (by decide)
  | denies => exact ⟨rfl, _, shmUp, PayloadPipeline.cipherKey_wrap _, rfl⟩
  | setupFails hauth hmsgType => exact hother hmsgType (by decide)
  | setup pipeline shm shmUp' bytes reply hauth hmsgType => exact hother hmsgType (by decide)
  | replies pipeline reply result hauth hresult hne => exact absurd htype hne.2.2.1
  | subscribes pipeline reply uri subscribed hauth hopens hsubscribed hkey hplain =>
      rw [Entry.confirmed, hframes] at hunconfirmed
      change ([reply].any _) = false at hunconfirmed
      rw [List.any_cons, List.any_nil, Bool.or_false, hplain.msgType_eq] at hunconfirmed
      cases hunconfirmed
  | refusesSubscription pipeline reply uri hauth hopens hmsgType hmissing hkey =>
      exact ⟨rfl, pipeline, shmUp, hkey, rfl⟩
  | cancels pipeline cancelled hauth hmsgType => exact hother hmsgType (by decide)
  | ignores hauth hresult =>
      rw [htype] at hresult
      cases hresult
  | callCancelled pipeline reply hauth hmsgType => exact hother hmsgType (by decide)
  | callDenied pipeline notices reply params hauth hmsgType => exact hother hmsgType (by decide)
  | called pipeline shm notices params sender hauth hmsgType => exact hother hmsgType (by decide)

end Frames

end Live

/-! ### Two resources -/

omit [Externals] in
/-- The JSON texts about a resource `r`. -/
@[reducible] def Externals.oneResource : Externals where
  toVec
    | .resourceUpdatedParams, params => utf8 ("\x7b\"uri\":\"" ++ params.uri ++ "\"\x7d")
    | _, _ => []
  fromSlice
    | .subscribeResourceParams, payload =>
        if payload = utf8 "\x7b\"uri\":\"r\"\x7d" then some ⟨"r"⟩ else none
    | _, _ => none
  compress := Externals.plain.compress
  decompress := Externals.plain.decompress
  aeadEncrypt := Externals.plain.aeadEncrypt
  aeadDecrypt := Externals.plain.aeadDecrypt
  sha256 := Externals.plain.sha256
  hmac := Externals.plain.hmac
  publicKey := Externals.plain.publicKey
  diffieHellman := Externals.plain.diffieHellman

namespace Live

omit [Externals] in
/-- A server without a token that offers `r` and `s`. -/
def twoResources : Shared where
  registry := (ToolRegistry.new.registerResource "r" "" "" "").registerResource "s" "" "" ""
  cache := .new 65536 cacheTtl
  acl := .new
  token := none

omit [Externals] in
/-- The subscription to `r`. -/
def subscribeR : Op :=
  .frame (World.still.env 0) (.new .subscribeResource 1 (utf8 "\x7b\"uri\":\"r\"\x7d"))

omit [Externals] in
/-- An update of a resource. -/
def update (uri : String) : List Op := [.write uri "", .send (.updated uri)]

/-- Whether the session waits, where it is in the events, and the types of what it has written. -/
def summary (s : State) : Bool × Nat × Nat × List MsgType :=
  (s.waiting, s.events.next, s.events.sent.length,
    (framesOf s.wire).map fun frame => frame.header.msgType)

omit [Externals] in
theorem of_summary {s : State} {waiting : Bool} {received sent : Nat} {types : List MsgType}
    (h : summary s = (waiting, received, sent, types)) :
    s.waiting = waiting ∧ s.events.next = received ∧ s.events.sent.length = sent ∧
      (framesOf s.wire).map (fun frame => frame.header.msgType) = types := by
  cases h
  exact ⟨rfl, rfl, rfl, rfl⟩

/-- A run, an update and a second run, each step of which passes a test. -/
theorem exists_update_run (s₀ : State) (ops : List Op) (event : ResourceEvent) (ops' : List Op)
    (test : State → Op → Bool) (v : Bool × Nat × Nat × List MsgType)
    (h : ((exec step (fun _ _ => true) s₀ ops).bind fun s₁ => (step s₁ (.send event)).bind fun s₂ =>
      (exec step test s₂ ops').map summary) = some v) :
    ∃ s₁ s₂ s, Run step Free s₀ ops s₁ ∧ step s₁ (.send event) = some s₂ ∧
      Run step (fun s op => test s op = true) s₂ ops' s ∧ summary s = v := by
  obtain ⟨s₁, hfirst, hrest⟩ := Option.bind_eq_some_iff.mp h
  obtain ⟨s₂, hstep, hlast⟩ := Option.bind_eq_some_iff.mp hrest
  obtain ⟨s, hsecond, hsummary⟩ := Option.map_eq_some_iff.mp hlast
  exact ⟨s₁, s₂, s, (run_of_exec hfirst).weaken fun _ _ _ => trivial, hstep, run_of_exec hsecond,
    hsummary⟩

/-! ### No notification without cause -/

/-- The notification of an update. -/
def updatedFrame (pipeline : PayloadPipeline) (uri : String) : Frame :=
  (pipeline.wrap .resourceUpdated 0 (Externals.toVec .resourceUpdatedParams ⟨uri⟩)).1

def listChangedFrame (pipeline : PayloadPipeline) : Frame :=
  (pipeline.wrap .resourceListChanged 0 (utf8 "{}")).1

/-- What holds of a turn after the turns before it: an answer to a frame is no notification; a notification
has its event, says what happened and, for an update, has a subscription that stands. -/
def Justified (sent : List ResourceEvent) (before : List Entry) : Entry → Prop
  | .handled env shared session frame =>
      ∀ reply ∈ (Entry.handled env shared session frame).frames,
        reply.header.msgType ≠ .resourceUpdated ∧ reply.header.msgType ≠ .resourceListChanged
  | .notified session index event frame =>
      sent[index]? = some event ∧
        match event with
        | .updated uri =>
            frame = updatedFrame session.pipeline uri ∧ lastSubscription uri before = some true
        | .listChanged => frame = listChangedFrame session.pipeline ∧ session.authenticated = true

theorem Justified.mono {sent sent' : List ResourceEvent} (hsent : sent <+: sent')
    {before : List Entry} {entry : Entry} (h : Justified sent before entry) :
    Justified sent' before entry := by
  cases entry with
  | handled env shared session frame => exact h
  | notified session index event frame =>
      obtain ⟨hevent, hrest⟩ := h
      obtain ⟨rest, rfl⟩ := hsent
      obtain ⟨hlt, _⟩ := List.getElem?_eq_some_iff.mp hevent
      exact ⟨(List.getElem?_append_left hlt).trans hevent, hrest⟩

/-- The history of a session accounts for every frame it queued. -/
structure Accounted (s : State) : Prop where
  frames_eq : s.frames = s.log.flatMap Entry.frames
  subscribed_iff : ∀ uri, uri ∈ s.session.subscribed ↔ lastSubscription uri s.log = some true
  justified : ∀ before entry after, s.log = before ++ entry :: after →
    Justified s.events.sent before entry
  ordered : (s.log.filterMap Entry.index).Pairwise (· < ·)
  received : ∀ index ∈ s.log.filterMap Entry.index, index < s.events.next

section Account

variable {s t : State}

theorem accounted_start (shared : Shared) (past pending : List ResourceEvent) :
    Accounted (.start shared past pending) where
  frames_eq := rfl
  subscribed_iff _ := iff_of_false (Finset.notMem_empty _) (by rintro ⟨⟩)
  justified _ _ _ h := absurd h.symm (List.append_ne_nil_of_right_ne_nil _ (List.cons_ne_nil _ _))
  ordered := .nil
  received _ h := absurd h List.not_mem_nil

theorem Accounted.aside (h : Accounted s) (haside : Aside s t) : Accounted t where
  frames_eq := by rw [haside.frames_eq, haside.log_eq, h.frames_eq]
  subscribed_iff uri := by rw [haside.session_eq, haside.log_eq, h.subscribed_iff]
  justified before entry after hlog :=
    (h.justified before entry after (haside.log_eq ▸ hlog)).mono haside.sent
  ordered := by
    rw [haside.log_eq]
    exact h.ordered
  received index hindex := by
    rw [haside.log_eq] at hindex
    rw [haside.next_eq]
    exact h.received index hindex

/-- A turn that is justified by the turns before it. -/
theorem justified_snoc {sent : List ResourceEvent} {log : List Entry} {entry : Entry}
    (hold : ∀ before entry after, log = before ++ entry :: after → Justified sent before entry)
    (hentry : Justified sent log entry) {before after : List Entry} {other : Entry}
    (hlog : log ++ [entry] = before ++ other :: after) : Justified sent before other := by
  rcases List.eq_nil_or_concat after with rfl | ⟨after, last, rfl⟩
  · obtain ⟨rfl, hlast⟩ := List.append_inj' hlog rfl
    cases hlast
    exact hentry
  · rw [List.concat_eq_append, ← List.cons_append, ← List.append_assoc] at hlog
    obtain ⟨hinit, _⟩ := List.append_inj' hlog rfl
    exact hold before other after hinit

theorem Accounted.handle (h : Accounted s) (env : Environment) (frame : Frame) :
    Accounted (s.handle env frame) := by
  obtain ⟨queued, wire, hhandle, hframes⟩ := s.handle_eq env frame
  have hindices : (s.log ++ [Entry.handled env s.shared s.session frame]).filterMap Entry.index =
      s.log.filterMap Entry.index :=
    List.filterMap_append.trans (List.append_nil _)
  rw [hhandle]
  refine ⟨?_, ?_, ?_, ?_, ?_⟩
  · change framesOf wire ++ queued = _
    rw [hframes, h.frames_eq, List.flatMap_append, List.flatMap_singleton]
  · exact fun uri => mem_subscribed_handleFrame uri (h.subscribed_iff uri)
  · intro before entry after hlog
    refine justified_snoc h.justified ?_ hlog
    exact fun reply hreply => not_notification_of_mem hreply
  · change ((s.log ++ [_]).filterMap Entry.index).Pairwise _
    rw [hindices]
    exact h.ordered
  · intro index hindex
    change index ∈ (s.log ++ [_]).filterMap Entry.index at hindex
    rw [hindices] at hindex
    exact h.received index hindex

theorem Accounted.poll (h : Accounted s) : Accounted s.poll := by
  rcases s.poll_cases with ⟨hpoll, _⟩ | ⟨index, event, events, frame, pipeline, hrecv, hnote, hpoll⟩
  · rw [hpoll]
    refine ⟨h.frames_eq, h.subscribed_iff, ?_, h.ordered, ?_⟩
    · intro before entry after hlog
      rw [s.events.sent_recv]
      exact h.justified before entry after hlog
    · exact fun index hindex => (h.received index hindex).trans_le s.events.next_le_next_recv
  rw [hpoll]
  obtain ⟨hindex, hevent, hsent, hnext⟩ := Broadcast.Receiver.of_recv_message hrecv
  refine ⟨?_, ?_, ?_, ?_, ?_⟩
  · rw [State.frames_flush]
    change framesOf s.wire ++ (s.queued ++ [frame]) = (s.log ++ [_]).flatMap Entry.frames
    rw [List.flatMap_append, List.flatMap_singleton, ← h.frames_eq, ← List.append_assoc]
    rfl
  · intro uri
    change uri ∈ s.session.subscribed ↔ lastSubscription uri (s.log ++ [_]) = some true
    rw [lastSubscription_snoc, Entry.subscription, Option.none_or]
    exact h.subscribed_iff uri
  · intro before entry after hlog
    refine justified_snoc ?_ ?_ hlog
    · intro before entry after hold
      change Justified events.sent before entry
      rw [hsent]
      exact h.justified before entry after hold
    · refine ⟨?_, ?_⟩
      · change events.sent[index]? = some event
        rw [hsent]
        exact hevent
      · cases event with
        | updated uri =>
            rw [Conn.notification] at hnote
            split_ifs at hnote with hmem
            have hframe : updatedFrame s.session.pipeline uri = frame :=
              congrArg Prod.fst (Option.some.inj hnote)
            exact ⟨hframe.symm, (h.subscribed_iff uri).mp hmem⟩
        | listChanged =>
            rw [Conn.notification] at hnote
            split_ifs at hnote with hauth
            have hframe : listChangedFrame s.session.pipeline = frame :=
              congrArg Prod.fst (Option.some.inj hnote)
            exact ⟨hframe.symm, hauth⟩
  · change ((s.log ++ [_]).filterMap Entry.index).Pairwise _
    rw [List.filterMap_append]
    refine List.pairwise_append.mpr ⟨h.ordered, List.pairwise_singleton _ _, ?_⟩
    intro earlier hearlier last hlast
    rw [List.mem_singleton.mp hlast, hindex]
    exact h.received earlier hearlier
  · intro earlier hearlier
    change earlier ∈ (s.log ++ [_]).filterMap Entry.index at hearlier
    change earlier < events.next
    rw [List.filterMap_append] at hearlier
    rw [hnext]
    rcases List.mem_append.mp hearlier with hold | hnew
    · exact (h.received earlier hold).trans (Nat.lt_succ_self _)
    · rw [List.mem_singleton.mp hnew, hindex]
      exact Nat.lt_succ_self _

theorem Accounted.step {op : Op} (h : Accounted s) (hstep : step s op = some t) : Accounted t := by
  rcases step_cases hstep with ⟨env, frame, _, _, rfl⟩ | ⟨_, _, rfl⟩ | haside
  · exact h.handle env frame
  · exact h.poll
  · exact h.aside haside

end Account

/-- **No spurious notification.** In every state a session reaches, everything it queued is in its
history; a notification is about the event of its number and answers to a subscription that stands,
or to an authenticated session; no two are about one event; and a subscription that is not confirmed
changes nothing. -/
theorem notifications_justified {shared : Shared} {past pending : List ResourceEvent}
    {ops : List Op} {s : State} (hrun : Run step Free (.start shared past pending) ops s) :
    s.frames = s.log.flatMap Entry.frames ∧
      (∀ before entry after, s.log = before ++ entry :: after →
        Justified s.events.sent before entry) ∧
      (s.log.filterMap Entry.index).Pairwise (· < ·) ∧
      ∀ env frame, frame.header.msgType = .subscribeResource →
        (Entry.handled env s.shared s.session frame).confirmed = false →
        (s.handle env frame).shared = s.shared ∧
          ∃ pipeline shmUp, pipeline.cipherKey = s.session.pipeline.cipherKey ∧
            (s.handle env frame).session =
              { s.session with pipeline := pipeline, shmUp := shmUp } := by
  have h : Accounted s := hrun.invariant (fun _ _ _ h _ hstep => h.step hstep)
    (accounted_start shared past pending)
  refine ⟨h.frames_eq, h.justified, h.ordered, ?_⟩
  intro env frame htype hunconfirmed
  obtain ⟨queued, wire, hhandle, _⟩ := s.handle_eq env frame
  rw [hhandle]
  exact session_of_unconfirmed htype hunconfirmed

omit [Externals] in
/-- A subscription to `r`, updates of `r` and `s`, and a resource that is added. -/
def noticeOps : List Op :=
  subscribeR :: update "r" ++ update "s" ++
    [.add "t" "" "" "", .send .listChanged, .dry, .poll, .poll, .poll]

/-- The events the client is told of. -/
def told (log : List Entry) : List ResourceEvent :=
  log.filterMap fun
    | .notified _ _ event _ => some event
    | .handled _ _ _ _ => none

omit [Externals] in
/-- The client is told of `r` and of the new list, and each time in these words. -/
theorem notifications_justified_told :
    letI : Externals := .oneResource
    ∃ s, Run step Free (.start twoResources [] []) noticeOps s ∧
      (framesOf s.wire).map (fun frame => frame.header.msgType) =
        [.subscribeResourceResult, .resourceUpdated, .resourceListChanged] ∧
      (∃ pipeline, updatedFrame pipeline "r" ∈ s.frames) ∧
      ∃ pipeline, listChangedFrame pipeline ∈ s.frames := by
  let _ : Externals := .oneResource
  obtain ⟨s, hexec, hsummary⟩ : ∃ s, exec step (fun _ _ => true) (.start twoResources [] []) noticeOps =
      some s ∧ (summary s, told s.log) =
        ((true, 3, 3, [.subscribeResourceResult, .resourceUpdated, .resourceListChanged]),
          [.updated "r", .listChanged]) :=
    Option.map_eq_some_iff.mp (by decide +kernel)
  obtain ⟨hwritten, htold⟩ := Prod.mk.inj hsummary
  have hrun : Run step Free (.start twoResources [] []) noticeOps s :=
    (run_of_exec hexec).weaken fun _ _ _ => trivial
  obtain ⟨hframes, hjustified, _⟩ := notifications_justified hrun
  have hnotice : ∀ event ∈ told s.log, ∃ before session index frame,
      Justified s.events.sent before (.notified session index event frame) ∧ frame ∈ s.frames := by
    intro event hevent
    obtain ⟨entry, hentry, hnotified⟩ := List.mem_filterMap.mp hevent
    obtain ⟨before, after, hlog⟩ := List.append_of_mem hentry
    have hentry' := hjustified before entry after hlog
    cases entry with
    | handled env shared session frame => cases hnotified
    | notified session index event' frame =>
        obtain rfl := Option.some.inj hnotified
        refine ⟨before, session, index, frame, hentry', ?_⟩
        rw [hframes]
        exact List.mem_flatMap_of_mem hentry (List.mem_singleton_self frame)
  rw [htold] at hnotice
  refine ⟨s, hrun, (of_summary hwritten).2.2.2, ?_, ?_⟩
  · obtain ⟨before, session, index, frame, ⟨_, rfl, _⟩, hmem⟩ := hnotice (.updated "r") List.mem_cons_self
    exact ⟨session.pipeline, hmem⟩
  · obtain ⟨before, session, index, frame, ⟨_, rfl, _⟩, hmem⟩ :=
      hnotice .listChanged (List.mem_cons_of_mem _ List.mem_cons_self)
    exact ⟨session.pipeline, hmem⟩

/-! ### No update missed -/

/-- The session is subscribed, and a poll does not find the event of the given number overwritten. -/
def Keeping (uri : String) (index : Nat) (s : State) (op : Op) : Prop :=
  uri ∈ s.session.subscribed ∧ (op = .poll → s.events.Keeps index)

/-- The event of an update is still to come, or its notification is queued after `before`. -/
structure Awaits (uri : String) (index : Nat) (before : List Frame) (s : State) : Prop where
  sent : s.events.sent[index]? = some (.updated uri)
  queued : ∃ late, s.frames = before ++ late ∧
    (s.events.next ≤ index ∨ ∃ pipeline, updatedFrame pipeline uri ∈ late)

section Updates

variable {uri : String} {index : Nat} {before : List Frame} {s t : State}

theorem Awaits.handle (h : Awaits uri index before s) (env : Environment) (frame : Frame) :
    Awaits uri index before (s.handle env frame) := by
  obtain ⟨hsent, late, hlate, hcases⟩ := h
  obtain ⟨queued, wire, hhandle, hframes⟩ := s.handle_eq env frame
  rw [hhandle]
  refine ⟨hsent, late ++ (Entry.handled env s.shared s.session frame).frames, ?_, ?_⟩
  · change framesOf wire ++ queued = _
    rw [hframes, hlate, List.append_assoc]
  · rcases hcases with hnext | ⟨pipeline, hmem⟩
    · exact .inl hnext
    · exact .inr ⟨pipeline, List.mem_append_left _ hmem⟩

theorem Awaits.aside (h : Awaits uri index before s) (haside : Aside s t) :
    Awaits uri index before t := by
  obtain ⟨hsent, hqueued⟩ := h
  obtain ⟨rest, hrest⟩ := haside.sent
  obtain ⟨hlt, _⟩ := List.getElem?_eq_some_iff.mp hsent
  refine ⟨?_, ?_⟩
  · rw [← hrest, List.getElem?_append_left hlt]
    exact hsent
  · rw [haside.frames_eq, haside.next_eq]
    exact hqueued

/-- A poll passes the event of a subscribed resource only by notifying the client. -/
theorem Awaits.poll (h : Awaits uri index before s) (hsubscribed : uri ∈ s.session.subscribed)
    (hkeeps : s.events.Keeps index) : Awaits uri index before s.poll := by
  obtain ⟨hsent, late, hlate, hcases⟩ := h
  have hpass : s.events.next ≤ index → index < s.events.recv.2.next →
      s.events.recv = (.message index (.updated uri), s.events.recv.2) :=
    fun hle hpast => Broadcast.Receiver.recv_of_keeps hkeeps hle hsent hpast
  rcases s.poll_cases with
    ⟨hpoll, hdropped⟩ | ⟨own, event, events, frame, pipeline, hrecv, hnote, hpoll⟩
  · rw [hpoll]
    refine ⟨(congrArg (·[index]?) s.events.sent_recv).trans hsent, late, hlate, ?_⟩
    rcases hcases with hnext | hmem
    · by_cases hpast : index < s.events.recv.2.next
      · have hnone := hdropped _ _ _ (hpass hnext hpast)
        rw [Conn.notification, if_pos hsubscribed] at hnone
        cases hnone
      · exact .inl (Nat.le_of_not_lt hpast)
    · exact .inr hmem
  · have hevents : s.events.recv.2 = events := congrArg Prod.snd hrecv
    rw [hpoll]
    refine ⟨?_, late ++ [frame], ?_, ?_⟩
    · change events.sent[index]? = _
      rw [← hevents, s.events.sent_recv]
      exact hsent
    · rw [State.frames_flush, ← List.append_assoc, ← hlate]
      exact (List.append_assoc _ _ _).symm
    · rcases hcases with hnext | ⟨sender, hmem⟩
      · by_cases hpast : index < s.events.recv.2.next
        · have hown := hrecv.symm.trans (hpass hnext hpast)
          cases hown
          rw [Conn.notification, if_pos hsubscribed] at hnote
          refine .inr ⟨s.session.pipeline, List.mem_append_right _ ?_⟩
          exact List.mem_singleton.mpr (congrArg Prod.fst (Option.some.inj hnote))
        · rw [hevents] at hpast
          exact .inl (Nat.le_of_not_lt hpast)
      · exact .inr ⟨sender, List.mem_append_left _ hmem⟩

theorem Awaits.step {op : Op} (h : Awaits uri index before s) (hkeeping : Keeping uri index s op)
    (hstep : step s op = some t) : Awaits uri index before t := by
  rcases step_cases hstep with ⟨env, frame, _, _, rfl⟩ | ⟨hop, _, rfl⟩ | haside
  · exact h.handle env frame
  · exact h.poll hkeeping.1 (hkeeping.2 hop)
  · exact h.aside haside

/-- A session that waits has written everything it queued. -/
theorem queued_of_waiting (h : s.waiting = true → s.queued = []) {op : Op}
    (hstep : step s op = some t) : t.waiting = true → t.queued = [] := by
  rcases step_cases hstep with ⟨env, frame, _, _, rfl⟩ | ⟨_, _, rfl⟩ | haside
  · obtain ⟨queued, wire, hhandle, _⟩ := s.handle_eq env frame
    rw [hhandle]
    intro h
    cases h
  · rcases s.poll_cases with ⟨hpoll, _⟩ | ⟨_, _, _, _, _, _, _, hpoll⟩
    · rw [hpoll]
      exact h
    · rw [hpoll]
      exact fun _ => rfl
  · rcases haside.queued_eq with ⟨hqueued, hwaiting⟩ | hnil
    · rw [hqueued, hwaiting]
      exact h
    · exact fun _ => hnil

end Updates

/-- **No update missed.** An update is sent, and from then on the session stays subscribed and never
polls when the event is already overwritten: once it waits with no event left, a notification of the
resource was written after the update. -/
theorem update_written {shared : Shared} {past pending : List ResourceEvent} {ops ops' : List Op}
    {uri : String} {s₁ s₂ s : State}
    (hbefore : Run step Free (.start shared past pending) ops s₁)
    (hupdate : step s₁ (.send (.updated uri)) = some s₂)
    (hafter : Run step (Keeping uri s₁.events.sent.length) s₂ ops' s)
    (hwaiting : s.waiting = true) (hdrained : s.events.Drained) :
    ∃ late pipeline, framesOf s.wire = s₂.frames ++ late ∧ updatedFrame pipeline uri ∈ late := by
  have hfresh : Awaits uri s₁.events.sent.length s₂.frames s₂ := by
    rw [step] at hupdate
    split_ifs at hupdate
    obtain rfl := Option.some.inj hupdate
    refine ⟨List.getElem?_concat_length .., [], (List.append_nil _).symm, .inl s₁.events.next_le⟩
  have hdry : s.waiting = true → s.queued = [] :=
    (hbefore.snoc hupdate trivial).append (hafter.weaken fun _ _ _ => trivial) |>.invariant
      (fun _ _ _ h _ hstep => queued_of_waiting h hstep) (by rintro ⟨⟩)
  obtain ⟨hsent, late, hlate, hcases⟩ := hafter.invariant
    (fun _ _ _ h hkeeping hstep => h.step hkeeping hstep) hfresh
  rw [State.frames, hdry hwaiting, List.append_nil] at hlate
  rcases hcases with hnext | ⟨pipeline, hmem⟩
  · obtain ⟨hlt, _⟩ := List.getElem?_eq_some_iff.mp hsent
    rw [Broadcast.Receiver.Drained] at hdrained
    omega
  · exact ⟨late, pipeline, hlate, hmem⟩

omit [Externals] in
/-- One update, of which the session hears at once. -/
theorem update_written_first :
    letI : Externals := .oneResource
    ∃ late pipeline, updatedFrame pipeline "r" ∈ late ∧
      ∃ s : State, s.waiting = true ∧ late <:+ framesOf s.wire := by
  let _ : Externals := .oneResource
  obtain ⟨s₁, s₂, s, hbefore, hupdate, hafter, hsummary⟩ := exists_update_run
    (.start twoResources [] []) [subscribeR, .write "r" ""] (.updated "r") [.dry, .poll]
    (fun s _ => decide ("r" ∈ s.session.subscribed ∧ s.events.sent.length ≤ 64))
    (true, 1, 1, [.subscribeResourceResult, .resourceUpdated]) (by decide +kernel)
  obtain ⟨hwaiting, hreceived, hsent, _⟩ := of_summary hsummary
  have hdrained : s.events.Drained := hreceived.trans hsent.symm
  have hkeeping : Run step (Keeping "r" s₁.events.sent.length) s₂ [.dry, .poll] s := by
    refine hafter.weaken fun s op htest => ?_
    obtain ⟨hmem, hlen⟩ := of_decide_eq_true htest
    exact ⟨hmem, fun _ => .inr (hlen.trans (Nat.le_add_left _ _))⟩
  obtain ⟨late, pipeline, hlate, hmem⟩ :=
    update_written hbefore hupdate hkeeping hwaiting hdrained
  exact ⟨late, pipeline, hmem, s, hwaiting, _, hlate.symm⟩

omit [Externals] in
/-- An update and 64 updates of another resource, all before the session looks: it waits with no event
left, was subscribed all the time, and has written no notification. -/
theorem update_missed :
    letI : Externals := .oneResource
    ∃ s₁ s₂ s, Run step Free (.start twoResources [] []) [subscribeR, .write "r" ""] s₁ ∧
      step s₁ (.send (.updated "r")) = some s₂ ∧
      Run step (fun s _ => "r" ∈ s.session.subscribed) s₂
        ((List.replicate 64 (update "s")).flatten ++ .dry :: List.replicate 65 .poll) s ∧
      s.waiting = true ∧ s.events.Drained ∧
      (framesOf s.wire).map (fun frame => frame.header.msgType) = [.subscribeResourceResult] := by
  let _ : Externals := .oneResource
  obtain ⟨s₁, s₂, s, hbefore, hupdate, hafter, hsummary⟩ := exists_update_run
    (.start twoResources [] []) [subscribeR, .write "r" ""] (.updated "r")
    ((List.replicate 64 (update "s")).flatten ++ .dry :: List.replicate 65 .poll)
    (fun s _ => decide ("r" ∈ s.session.subscribed))
    (true, 65, 65, [.subscribeResourceResult]) (by decide +kernel)
  obtain ⟨hwaiting, hreceived, hsent, htypes⟩ := of_summary hsummary
  exact ⟨s₁, s₂, s, hbefore, hupdate, hafter.weaken fun _ _ => of_decide_eq_true, hwaiting,
    hreceived.trans hsent.symm, htypes⟩

end Live

end Ohmcp
