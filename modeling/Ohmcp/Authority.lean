import Ohmcp.Serving

/-! Who may call tools: over all connections of a daemon, the access list holds the anonymous agent and
the agents whose `Auth` was accepted, and no session that is past the gate is denied a tool. -/

open Transition

namespace Ohmcp

variable [Externals]

/-! ### One frame -/

omit [Externals] in
/-- The access list after some `Auth` frames were accepted. -/
def ToolAcl.grantEach (acl : ToolAcl) (accepted : List AuthParams) : ToolAcl :=
  accepted.foldl (fun acl params => acl.grantAll params.agentId) acl

omit [Externals] in
theorem mem_allowAll_grantEach {acl : ToolAcl} {accepted : List AuthParams} {agentId : String} :
    agentId ∈ (acl.grantEach accepted).allowAll ↔
      agentId ∈ acl.allowAll ∨ ∃ params ∈ accepted, params.agentId = agentId := by
  induction accepted generalizing acl with
  | nil =>
      refine (or_iff_left ?_).symm
      rintro ⟨params, hmem, _⟩
      exact List.not_mem_nil hmem
  | cons params accepted ih =>
      have hgranted : agentId ∈ (acl.grantAll params.agentId).allowAll ↔
          params.agentId = agentId ∨ agentId ∈ acl.allowAll :=
        Finset.mem_insert.trans (or_congr_left eq_comm)
      rw [ToolAcl.grantEach, List.foldl_cons]
      refine ih.trans ?_
      rw [hgranted, List.exists_mem_cons_iff, or_comm (a := params.agentId = agentId), or_assoc]

omit [Externals] in
theorem grants_grantEach (acl : ToolAcl) (accepted : List AuthParams) :
    (acl.grantEach accepted).grants = acl.grants := by
  induction accepted generalizing acl with
  | nil => rfl
  | cons params accepted ih => exact ih (acl.grantAll params.agentId)

/-- The response of an `Auth` body to its own nonce, under the token of the server. -/
def Genuine (token : Option Bytes) (params : AuthParams) : Prop :=
  ∃ secret nonce, token = some secret ∧ params.nonce = some nonce ∧
    unhex params.token = .ok (some (hmacResponse secret (utf8 nonce)).bytes)

theorem genuine_of_accepted {token : Option Bytes} {params : AuthParams}
    {accepted : Bytes × Bytes} (h : acceptedAuth token params = .ok (some accepted)) :
    Genuine token params := by
  cases token with
  | none => cases h
  | some secret =>
      obtain ⟨nonce, response, hnonce, hresponse, rfl⟩ := acceptedAuth_some h
      exact ⟨secret, nonce, rfl, hnonce, hresponse⟩

/-- Access changes by an `Auth` that is accepted, and by nothing else. -/
structure Access (shared : Shared) (session : Session) (accepted : List AuthParams)
    (shared' : Shared) (session' : Session) : Prop where
  acl_eq : shared'.acl = shared.acl.grantEach accepted
  token_eq : shared'.token = shared.token
  genuine : ∀ params ∈ accepted, Genuine shared.token params
  agent : session'.authenticated = session.authenticated ∧ session'.agentId = session.agentId ∨
    ∃ params ∈ accepted, session'.agentId = params.agentId

theorem Access.same {shared shared' : Shared} {session session' : Session}
    (hacl : shared'.acl = shared.acl) (htoken : shared'.token = shared.token)
    (hauth : session'.authenticated = session.authenticated)
    (hagent : session'.agentId = session.agentId) : Access shared session [] shared' session' :=
  ⟨hacl, htoken, fun _ hmem => absurd hmem List.not_mem_nil, .inl ⟨hauth, hagent⟩⟩

section Frames

variable {env : Environment} {shared : Shared} {session : Session} {frame : Frame}

theorem acceptedParams_eq_none_of_error {e : String}
    (hresolve : (resolveUplink session frame).1 = .error e) :
    AuthRuns.acceptedParams env shared session frame = none := by
  rw [AuthRuns.acceptedParams, hresolve]

theorem acceptedParams_of_resolved {resolved : Frame}
    (hresolve : (resolveUplink session frame).1 = .ok resolved) :
    AuthRuns.acceptedParams env shared session frame =
      if resolved.header.msgType = .auth ∧ (handleFrame env shared session frame).flow = .next then
        Externals.fromSlice .authParams resolved.payload
      else none := by
  rw [AuthRuns.acceptedParams, hresolve]

theorem access_handleFrame (env : Environment) (shared : Shared) (session : Session)
    (frame : Frame) :
    Access shared session (AuthRuns.acceptedParams env shared session frame).toList
      (handleFrame env shared session frame).shared
      (handleFrame env shared session frame).session := by
  rcases handleFrame_cases env shared session frame with
    ⟨shmUp, e, hresolve, hhandled⟩ | ⟨shmUp, resolved, hresolve, heffect⟩
  · rw [acceptedParams_eq_none_of_error hresolve, hhandled]
    exact .same rfl rfl rfl rfl
  rw [acceptedParams_of_resolved (by rw [hresolve])]
  generalize handleFrame env shared session frame = handled at heffect
  have hnone : ∀ {shared' : Shared} {session' : Session} {accepted : Prop} [Decidable accepted],
      ¬ accepted → shared'.acl = shared.acl → shared'.token = shared.token →
      session'.authenticated = session.authenticated → session'.agentId = session.agentId →
      Access shared session
        (if accepted then Externals.fromSlice .authParams resolved.payload else none).toList
        shared' session' := by
    intro shared' session' accepted _ hnot hacl htoken hauth hagent
    rw [if_neg hnot]
    exact .same hacl htoken hauth hagent
  have hother : ∀ {msgType : MsgType} {p : Prop}, resolved.header.msgType = msgType →
      msgType ≠ .auth → ¬ (resolved.header.msgType = .auth ∧ p) :=
    fun htype hne hauth => hne (htype.symm.trans hauth.1)
  cases heffect with
  | fails pipeline flow hkey hnext =>
      exact hnone (fun hauth => hnext hauth.2) rfl rfl rfl rfl
  | rejects params hrejects =>
      exact hnone (fun hauth => Flow.noConfusion hauth.2) rfl rfl rfl rfl
  | accepts params token nonce clientPub haccepts =>
      rw [if_pos ⟨haccepts.msgType_eq, rfl⟩, haccepts.parses]
      refine ⟨rfl, rfl, fun params' hmem => ?_, .inr ⟨params, List.mem_singleton_self params, rfl⟩⟩
      rw [List.mem_singleton.mp hmem]
      exact genuine_of_accepted haccepts.accepted
  | denies hauth htype => exact hnone (hother rfl htype) rfl rfl rfl rfl
  | setupFails hauth htype =>
      exact hnone (fun hauth => Flow.noConfusion hauth.2) rfl rfl rfl rfl
  | setup pipeline shm shmUp bytes reply hauth htype =>
      exact hnone (hother htype (by decide)) rfl rfl rfl rfl
  | replies pipeline reply result hauth hresult htype =>
      exact hnone (hother rfl htype.1) rfl rfl rfl rfl
  | subscribes pipeline reply uri subscribed hauth hopens hsubscribed =>
      rcases hsubscribed with ⟨htype, _⟩ | ⟨htype, _⟩
      · exact hnone (hother htype (by decide)) rfl rfl rfl rfl
      · exact hnone (hother htype (by decide)) rfl rfl rfl rfl
  | refusesSubscription pipeline reply uri hauth hopens htype =>
      exact hnone (hother htype (by decide)) rfl rfl rfl rfl
  | cancels pipeline cancelled hauth htype =>
      exact hnone (hother htype (by decide)) rfl rfl rfl rfl
  | ignores hauth hresult htype =>
      refine hnone (fun hboth => ?_) rfl rfl rfl rfl
      rw [hboth.1] at hresult
      cases hresult
  | callCancelled pipeline reply hauth htype =>
      exact hnone (hother htype (by decide)) rfl rfl rfl rfl
  | callDenied pipeline notices reply params hauth htype =>
      exact hnone (hother htype (by decide)) rfl rfl rfl rfl
  | called pipeline shm notices params sender hauth htype =>
      exact hnone (hother htype (by decide)) rfl rfl rfl rfl

end Frames

namespace Daemon

/-! ### All connections -/

omit [Externals] in
/-- The tasks there ever were. -/
def Stream.task : Stream → Option Task
  | serving task => some task
  | closed task => some task
  | aborted task => some task
  | _ => none

omit [Externals] in
def State.tasks (s : State) : List Task := s.streams.filterMap Stream.task

section Steps

variable {config : ServerConfig} {s t : State} {op : Op} {i : Nat} {task task' : Task}
  {accepted : List AuthParams}

omit [Externals] in
theorem mem_tasks_of_running (h : s.running i = some task) : task ∈ s.tasks :=
  List.mem_filterMap.mpr ⟨_, List.mem_of_getElem? (running_eq_some h).1, rfl⟩

/-- Every task was there before, has just begun, has just moved, or its socket has. -/
theorem Changes.tasks (h : Changes s t) (hmem : task' ∈ t.tasks) :
    task' ∈ s.tasks ∨ task' = .new s.shared ∨
      (∃ i task accepted, s.running i = some task ∧ Moves s task task' accepted ∧
        t = { s.put i task' with verified := s.verified ++ accepted }) ∨
      ∃ task ∈ s.tasks, Drains task task' := by
  obtain ⟨stream, hstream, htask⟩ := List.mem_filterMap.mp hmem
  have hold : stream ∈ s.streams → task' ∈ s.tasks :=
    fun hold => List.mem_filterMap.mpr ⟨stream, hold, htask⟩
  have hentry : ∀ {i : Nat} {entry : Stream}, s.streams[i]? = some entry →
      entry.task = some task' → task' ∈ s.tasks :=
    fun hentry hsome => List.mem_filterMap.mpr ⟨_, List.mem_of_getElem? hentry, hsome⟩
  cases h with
  | aside clock registry phase _ _ => exact .inl (hold hstream)
  | admits hphase hleft =>
      rcases List.mem_append.mp hstream with hmem | hmem
      · exact .inl (hold hmem)
      · rw [List.mem_singleton.mp hmem] at htask
        exact .inr (.inl (Option.some.inj htask).symm)
  | turnsAway hphase hnone =>
      rcases List.mem_append.mp hstream with hmem | hmem
      · exact .inl (hold hmem)
      · rw [List.mem_singleton.mp hmem] at htask
        cases htask
  | rejects i written hrejecting =>
      rcases List.mem_or_eq_of_mem_set hstream with hmem | rfl
      · exact .inl (hold hmem)
      · cases htask
  | moves i task moved accepted hrunning hmoves =>
      rcases List.mem_or_eq_of_mem_set hstream with hmem | rfl
      · exact .inl (hold hmem)
      · obtain rfl := Option.some.inj htask
        exact .inr (.inr (.inl ⟨i, task, accepted, hrunning, hmoves, rfl⟩))
  | drains i task drained hserving hdrains =>
      rcases List.mem_or_eq_of_mem_set hstream with hmem | rfl
      · exact .inl (hold hmem)
      · obtain rfl := Option.some.inj htask
        have hbefore : task ∈ s.tasks :=
          List.mem_filterMap.mpr ⟨_, List.mem_of_getElem? hserving, rfl⟩
        exact .inr (.inr (.inr ⟨task, hbefore, hdrains⟩))
  | finishes i task hserving hflow hfree =>
      rcases List.mem_or_eq_of_mem_set hstream with hmem | rfl
      · exact .inl (hold hmem)
      · exact .inl (hentry hserving htask)
  | aborts i task hserving hover =>
      rcases List.mem_or_eq_of_mem_set hstream with hmem | rfl
      · exact .inl (hold hmem)
      · exact .inl (hentry hserving htask)

omit [Externals] in
theorem Drains.session_eq (h : Drains task task') : task'.conn.session = task.conn.session := by
  cases h with
  | takes => rfl
  | breaks => rfl

theorem Moves.access (h : Moves s task task' accepted) :
    Access s.shared task.conn.session accepted task'.conn.shared task'.conn.session := by
  cases h with
  | handles env frame rest =>
      obtain ⟨hcore, _⟩ := Conn.core_handle_flow (.within env) (s.view task) frame rest
      have hshared : ((s.view task).handle (.within env) frame rest).shared =
          (handleFrame env s.shared task.conn.session frame).shared :=
        congrArg Conn.Core.shared hcore
      have hsession : ((s.view task).handle (.within env) frame rest).session =
          (handleFrame env s.shared task.conn.session frame).session :=
        congrArg Conn.Core.session hcore
      rw [hshared, hsession]
      exact access_handleFrame env s.shared task.conn.session frame
  | dries hnone => exact .same rfl rfl rfl rfl
  | fills chunk hwaits hnone => exact .same rfl rfl rfl rfl
  | fails buf e => exact .same rfl rfl rfl rfl
  | closes hwaits =>
      rw [Conn.close]
      split_ifs
      · exact .same rfl rfl rfl rfl
      · exact .same rfl rfl rfl rfl
  | notifies event hwaits =>
      rw [Conn.notify]
      cases Conn.notification (s.view task).session event with
      | some notice => exact .same rfl rfl rfl rfl
      | none => exact .same rfl rfl rfl rfl
  | ends hwaits => exact .same rfl rfl rfl rfl

/-! ### Who is on the access list -/

omit [Externals] in
/-- The agent has the anonymous agent's name or that of an accepted `Auth`. -/
def State.Known (s : State) (agentId : String) : Prop :=
  agentId = "anonymous" ∨ ∃ params ∈ s.verified, params.agentId = agentId

structure Governed (token : Option Bytes) (s : State) : Prop where
  token_eq : s.shared.token = token
  grants_eq : s.shared.acl.grants = ∅
  allowed : ∀ agentId, agentId ∈ s.shared.acl.allowAll ↔ s.Known agentId
  genuine : ∀ params ∈ s.verified, Genuine token params
  known : ∀ task ∈ s.tasks, s.Known task.conn.session.agentId
  identified : ∀ task ∈ s.tasks, task.conn.session.authenticated = true →
    token = none ∨ ∃ params ∈ s.verified, params.agentId = task.conn.session.agentId

theorem governed_start (token : Option Bytes) (registry : ToolRegistry) :
    Governed token (.start config token registry) where
  token_eq := rfl
  grants_eq := rfl
  allowed agentId := by
    refine Finset.mem_insert.trans (or_congr_right (iff_of_false (Finset.notMem_empty _) ?_))
    rintro ⟨params, hmem, _⟩
    exact List.not_mem_nil hmem
  genuine params hmem := absurd hmem List.not_mem_nil
  known task hmem := absurd hmem List.not_mem_nil
  identified task hmem := absurd hmem List.not_mem_nil

theorem Changes.access (h : Changes s t) :
    ∃ accepted, t.verified = s.verified ++ accepted ∧
      t.shared.acl = s.shared.acl.grantEach accepted ∧ t.shared.token = s.shared.token ∧
      ∀ params ∈ accepted, Genuine s.shared.token params := by
  have hnone : t.verified = s.verified → t.shared.acl = s.shared.acl →
      t.shared.token = s.shared.token →
      ∃ accepted, t.verified = s.verified ++ accepted ∧
        t.shared.acl = s.shared.acl.grantEach accepted ∧ t.shared.token = s.shared.token ∧
        ∀ params ∈ accepted, Genuine s.shared.token params :=
    fun hverified hacl htoken => ⟨[], hverified.trans (List.append_nil _).symm, hacl, htoken,
      fun _ hmem => absurd hmem List.not_mem_nil⟩
  cases h with
  | moves i task task' accepted hrunning hmoves =>
      have haccess := hmoves.access
      exact ⟨accepted, rfl, haccess.acl_eq, haccess.token_eq, haccess.genuine⟩
  | _ => exact hnone rfl rfl rfl

theorem verified_of_changes (h : Changes s t) {params : AuthParams} (hmem : params ∈ s.verified) :
    params ∈ t.verified := by
  obtain ⟨accepted, hverified, _⟩ := h.access
  rw [hverified]
  exact List.mem_append_left accepted hmem

theorem known_of_changes {agentId : String} (h : Changes s t) (hknown : s.Known agentId) :
    t.Known agentId :=
  hknown.imp_right fun ⟨params, hmem, heq⟩ => ⟨params, verified_of_changes h hmem, heq⟩

theorem governed_of_changes {token : Option Bytes} (h : Changes s t) (hs : Governed token s) :
    Governed token t := by
  obtain ⟨accepted, hverified, hacl, htoken, hgenuine⟩ := h.access
  refine ⟨htoken.trans hs.token_eq, ?_, fun agentId => ?_, fun params hmem => ?_,
    fun task hmem => ?_, fun task hmem hauth => ?_⟩
  · rw [hacl, grants_grantEach, hs.grants_eq]
  · rw [hacl, mem_allowAll_grantEach, hs.allowed, State.Known, State.Known, hverified, or_assoc]
    simp only [List.mem_append, or_and_right, exists_or]
  · rw [hverified] at hmem
    rcases List.mem_append.mp hmem with hold | hnew
    · exact hs.genuine params hold
    · exact hs.token_eq ▸ hgenuine params hnew
  · rcases h.tasks hmem with hold | rfl | ⟨i, before, accepted, hrunning, hmoves, rfl⟩ |
      ⟨before, hbefore, hdrains⟩
    · exact known_of_changes h (hs.known task hold)
    · exact .inl rfl
    · rcases hmoves.access.agent with ⟨_, hsame⟩ | ⟨params, hparams, hagent⟩
      · rw [hsame]
        exact known_of_changes h (hs.known before (mem_tasks_of_running hrunning))
      · exact .inr ⟨params, List.mem_append_right _ hparams, hagent.symm⟩
    · rw [hdrains.session_eq]
      exact known_of_changes h (hs.known before hbefore)
  · have hkept : ∀ before ∈ s.tasks, before.conn.session.authenticated = true →
        token = none ∨ ∃ params ∈ t.verified, params.agentId = before.conn.session.agentId :=
      fun before hbefore hauth => (hs.identified before hbefore hauth).imp_right
        fun ⟨params, hparams, heq⟩ => ⟨params, verified_of_changes h hparams, heq⟩
    rcases h.tasks hmem with hold | rfl | ⟨i, before, accepted, hrunning, hmoves, rfl⟩ |
      ⟨before, hbefore, hdrains⟩
    · exact hkept task hold hauth
    · have hnew : s.shared.token.isNone = true := hauth
      rw [hs.token_eq] at hnew
      exact .inl (Option.isNone_iff_eq_none.mp hnew)
    · rcases hmoves.access.agent with ⟨hsame, hagent⟩ | ⟨params, hparams, hagent⟩
      · rw [hsame] at hauth
        rw [hagent]
        exact hkept before (mem_tasks_of_running hrunning) hauth
      · exact .inr ⟨params, List.mem_append_right _ hparams, hagent.symm⟩
    · rw [hdrains.session_eq] at hauth ⊢
      exact hkept before hbefore hauth

theorem Governed.check_iff {token : Option Bytes} (hs : Governed token s)
    (agentId tool : String) :
    s.shared.acl.check agentId tool = .ok () ↔ s.Known agentId := by
  rw [← hs.allowed, ToolAcl.check, hs.grants_eq]
  by_cases hmem : agentId ∈ s.shared.acl.allowAll
  · rw [if_pos hmem]
    exact iff_of_true rfl hmem
  · rw [if_neg hmem]
    exact iff_of_false (by intro h; cases h) hmem

/-- **Authority.** Whatever the connections do, an agent is granted a tool, and then all of them, if and
only if it is the anonymous one or named by an `Auth` that was accepted; every `Auth` that was accepted
answers its own nonce under the server's token; and a session past the gate of a server with a token
stands for an agent so named. No session is ever denied a tool. -/
theorem check_iff_known {token : Option Bytes} {registry : ToolRegistry} {ops : List Op}
    (hrun : Run (step config) Free (.start config token registry) ops s) :
    (∀ agentId tool, s.shared.acl.check agentId tool = .ok () ↔
        agentId = "anonymous" ∨ ∃ params ∈ s.verified, params.agentId = agentId) ∧
      (∀ params ∈ s.verified, Genuine token params) ∧
      ∀ task ∈ s.tasks,
        (∀ tool, s.shared.acl.check task.conn.session.agentId tool = .ok ()) ∧
          (task.conn.session.authenticated = true → token = none ∨
            ∃ params ∈ s.verified, params.agentId = task.conn.session.agentId) := by
  have hs : Governed token s :=
    hrun.invariant (fun _ _ _ hs _ hstep => governed_of_changes (changes_of_step hstep) hs)
      (governed_start token registry)
  exact ⟨fun agentId tool => hs.check_iff agentId tool, hs.genuine,
    fun task hmem => ⟨fun tool => (hs.check_iff _ tool).mpr (hs.known task hmem),
      hs.identified task hmem⟩⟩

omit [Externals] in
open AuthRuns in
/-- One client authenticates. -/
theorem check_iff_known_captured :
    letI : Externals := handshake
    ∃ s : State, s.verified = [captured] ∧
      (∀ agentId tool, s.shared.acl.check agentId tool = .ok () ↔
        agentId = "anonymous" ∨ ∃ params ∈ s.verified, params.agentId = agentId) ∧
      (∀ params ∈ s.verified, Genuine (some sharedToken) params) ∧
      ∀ task ∈ s.tasks,
        (∀ tool, s.shared.acl.check task.conn.session.agentId tool = .ok ()) ∧
          (task.conn.session.authenticated = true → some sharedToken = none ∨
            ∃ params ∈ s.verified, params.agentId = task.conn.session.agentId) := by
  let _ : Externals := handshake
  obtain ⟨s, hverified, hrun⟩ : ∃ s : State, s.verified = [captured] ∧
      Run (step .default) Free (.start .default (some sharedToken) .new)
        [.accept, .turn 0 environment, .read 0 environment (authFrame captured).encode] s := by
    refine ⟨_, ?_, .cons rfl trivial (.cons rfl trivial (.cons rfl trivial (.nil _)))⟩
    decide +kernel
  exact ⟨s, hverified, check_iff_known hrun⟩

end Steps

end Daemon

end Ohmcp
