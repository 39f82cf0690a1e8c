import Mathlib.Data.Prod.Lex
import Ohmcp.Authority

/-! The shutdown: a session is told to end only when it has handled every request it received and sent
everything it has to say, and nothing but a client that does not read keeps the server from its end. -/

open Transition Permits

namespace Ohmcp

variable [Externals]

namespace Daemon

/-! ### A session is told to end only between requests -/

omit [Externals] in
/-- Every complete request is handled, and everything that was queued is sent. -/
structure Settled (conn : Conn) : Prop where
  out_eq : conn.out = []
  handled : (Frame.decode conn.buf).1 = .ok none

omit [Externals] in
structure Task.Sound (task : Task) : Prop where
  waits : task.waiting = true → task.conn.flow = .next ∧ Settled task.conn
  ended : task.noticed = true → task.conn.flow = .returned ∧ Settled task.conn ∧ task.Free

section Steps

variable {config : ServerConfig} {s t : State} {op : Op} {i : Nat} {task task' : Task}
  {accepted : List AuthParams}

omit [Externals] in
theorem Settled.flush {conn : Conn} (hdecode : (Frame.decode conn.buf).1 = .ok none) :
    Settled conn.flush := ⟨rfl, hdecode⟩

theorem Settled.notify {conn : Conn} (h : Settled conn) (event : ResourceEvent) :
    Settled (conn.notify event) := by
  rw [Conn.notify]
  cases Conn.notification conn.session event with
  | some notice => exact ⟨rfl, h.handled⟩
  | none => exact h

theorem Moves.sound (h : Moves s task task' accepted) (hflow : task.conn.flow = .next)
    (hfree : task.Free) (htask : task.Sound) : task'.Sound := by
  have hnoticed : task.noticed ≠ true := by
    intro hnoticed
    have hreturned := (htask.ended hnoticed).1
    rw [hflow] at hreturned
    cases hreturned
  have hview : task.waiting = true → Settled (s.view task) := fun hwaits =>
    ⟨(htask.waits hwaits).2.out_eq, (htask.waits hwaits).2.handled⟩
  cases h with
  | handles env frame rest =>
      exact ⟨fun hwaits => absurd hwaits Bool.false_ne_true, fun h => absurd h hnoticed⟩
  | dries hnone =>
      exact ⟨fun _ => ⟨hflow, Settled.flush hnone⟩, fun h => absurd h hnoticed⟩
  | fills chunk hwaits hnone =>
      exact ⟨fun _ => ⟨hflow, (hview hwaits).out_eq, hnone⟩, fun h => absurd h hnoticed⟩
  | fails buf e =>
      exact ⟨fun hwaits => absurd hwaits Bool.false_ne_true, fun h => absurd h hnoticed⟩
  | closes hwaits =>
      exact ⟨fun hwaits => absurd hwaits Bool.false_ne_true, fun h => absurd h hnoticed⟩
  | notifies event hwaits =>
      exact ⟨fun _ => ⟨(Conn.flow_notify _ event).trans hflow, (hview hwaits).notify event⟩,
        fun h => absurd h hnoticed⟩
  | ends hwaits =>
      -- nothing was queued, so the last flush writes nothing
      have hempty : task.conn.out = [] := (hview hwaits).out_eq
      have hsent : task.conn.sent ++ task.conn.out = task.conn.sent := by
        rw [hempty, List.append_nil]
      have hdone : (task.conn.sent ++ task.conn.out).length ≤ task.taken := by
        rw [hsent]
        exact hfree
      exact ⟨fun hwaits => absurd hwaits Bool.false_ne_true,
        fun _ => ⟨rfl, ⟨rfl, (hview hwaits).handled⟩, hdone⟩⟩

omit [Externals] in
theorem Drains.sound (h : Drains task task') (htask : task.Sound) : task'.Sound := by
  cases h with
  | takes n hpos hle =>
      refine ⟨htask.waits, fun hnoticed => ?_⟩
      obtain ⟨hflow, hsettled, hfree⟩ := htask.ended hnoticed
      exact ⟨hflow, hsettled, Nat.le_trans hfree (Nat.le_add_right _ _)⟩
  | breaks failure hwrites =>
      refine ⟨fun hwaits => absurd hwaits Bool.false_ne_true, fun hnoticed => ?_⟩
      obtain ⟨hflow, _, hfree⟩ := htask.ended hnoticed
      rcases hwrites with hnext | hblocked
      · rw [hflow] at hnext
        cases hnext
      · exact absurd hfree hblocked

theorem sound_of_changes (h : Changes s t) (hs : ∀ task ∈ s.tasks, task.Sound) :
    ∀ task ∈ t.tasks, task.Sound := by
  intro task hmem
  rcases h.tasks hmem with hold | rfl | ⟨i, before, accepted, hrunning, hmoves, _⟩ |
    ⟨before, hbefore, hdrains⟩
  · exact hs task hold
  · exact ⟨fun h => absurd h Bool.false_ne_true, fun h => absurd h Bool.false_ne_true⟩
  · obtain ⟨_, hflow, hfree⟩ := running_eq_some hrunning
    exact hmoves.sound hflow hfree (hs before (mem_tasks_of_running hrunning))
  · exact hdrains.sound (hs before hbefore)

/-! ### A server that drained has cut nobody off -/

/-- How far the server is with its end. -/
structure Ending (s : State) : Prop where
  drained : s.phase = .returned true → s.serving = 0
  gaveUp : ∀ task, .aborted task ∈ s.streams → s.phase = .returned false ∨ s.phase = .failed

omit [Externals] in
theorem serving_pos (h : s.streams[i]? = some (.serving task)) : 0 < s.serving :=
  List.countP_pos_iff.mpr ⟨_, List.mem_of_getElem? h, rfl⟩

theorem ending_of_changes (h : Changes s t) (hs : Ending s) : Ending t := by
  have hmoved : ∀ {i before after}, s.streams[i]? = some before → after.holds = before.holds →
      (s.phase = .returned true → (s.streams.set i after).countP Stream.holds = 0) := by
    intro i before after hbefore hsame hreturned
    rw [countP_set_of_eq Stream.holds hbefore hsame]
    exact hs.drained hreturned
  have hempty : ∀ {i : Nat} {task : Task}, s.streams[i]? = some (.serving task) → s.phase ≠ .returned true :=
    fun hentry hreturned => (serving_pos hentry).ne' (hs.drained hreturned)
  have hset : ∀ {i after task}, .aborted task ∈ s.streams.set i after → after ≠ .aborted task →
      s.phase = .returned false ∨ s.phase = .failed :=
    fun hmem hne => hs.gaveUp _
      ((List.mem_or_eq_of_mem_set hmem).resolve_right fun heq => hne heq.symm)
  have hadded : ∀ {added task}, .aborted task ∈ s.streams ++ [added] → added ≠ .aborted task →
      s.phase = .returned false ∨ s.phase = .failed :=
    fun hmem hne => hs.gaveUp _ ((List.mem_append.mp hmem).resolve_right fun hlast =>
      hne (List.mem_singleton.mp hlast).symm)
  have haccepting : ∀ {p : Prop}, s.phase = .accepting → s.phase = .returned true → p := by
    intro p hphase hreturned
    rw [hphase] at hreturned
    cases hreturned
  cases h with
  | aside clock registry phase hover hjoined =>
      refine ⟨fun hreturned => (hjoined hreturned).elim hs.drained id, fun task hmem => ?_⟩
      have hgave := hs.gaveUp task hmem
      have hsame : phase = s.phase := by
        refine hover ?_
        rcases hgave with hgave | hgave
        · rw [hgave]
          rfl
        · rw [hgave]
          rfl
      rw [hsame]
      exact hgave
  | admits hphase hleft =>
      exact ⟨haccepting hphase, fun task hmem => hadded hmem Stream.noConfusion⟩
  | turnsAway hphase hnone =>
      exact ⟨haccepting hphase, fun task hmem => hadded hmem Stream.noConfusion⟩
  | rejects i written hentry =>
      exact ⟨hmoved hentry rfl, fun task hmem => hset hmem Stream.noConfusion⟩
  | moves i task task' accepted hrunning hmoves =>
      exact ⟨hmoved (running_eq_some hrunning).1 rfl, fun task hmem => hset hmem Stream.noConfusion⟩
  | drains i task task' hentry hdrains =>
      exact ⟨hmoved hentry rfl, fun task hmem => hset hmem Stream.noConfusion⟩
  | finishes i task hentry hflow hfree =>
      exact ⟨fun hreturned => absurd hreturned (hempty hentry),
        fun task hmem => hset hmem Stream.noConfusion⟩
  | aborts i task hentry hover =>
      refine ⟨fun hreturned => absurd hreturned (hempty hentry), fun _ _ => ?_⟩
      cases hphase : s.phase with
      | accepting => rw [hphase] at hover; cases hover
      | draining deadline => rw [hphase] at hover; cases hover
      | returned drained =>
          cases drained with
          | true => exact absurd hphase (hempty hentry)
          | false => exact .inl rfl
      | failed => exact .inr rfl

/-- **Graceful.** A server that has returned in time has no session left, and never has it aborted
one: that is for a server whose grace is over or whose `accept` failed. A session that was told to end
has handled every complete request it received and sent everything it queued, and its socket has
taken it. -/
theorem nothing_cut_off {token : Option Bytes} {registry : ToolRegistry} {ops : List Op}
    (hrun : Run (step config) Free (.start config token registry) ops s) :
    (s.phase = .returned true → s.serving = 0 ∧ ∀ task, .aborted task ∉ s.streams) ∧
      (∀ task, .aborted task ∈ s.streams → s.phase = .returned false ∨ s.phase = .failed) ∧
      ∀ task ∈ s.tasks, task.noticed = true →
        task.conn.flow = .returned ∧ task.conn.out = [] ∧ task.Free ∧
          (Frame.decode task.conn.buf).1 = .ok none := by
  have hending : Ending s :=
    hrun.invariant (fun _ _ _ hs _ hstep => ending_of_changes (changes_of_step hstep) hs)
      ⟨nofun, fun _ hmem => absurd hmem List.not_mem_nil⟩
  have hsound : ∀ task ∈ s.tasks, task.Sound :=
    hrun.invariant (fun _ _ _ hs _ hstep => sound_of_changes (changes_of_step hstep) hs)
      (fun _ hmem => absurd hmem List.not_mem_nil)
  refine ⟨fun hreturned => ⟨hending.drained hreturned, fun task hmem => ?_⟩, hending.gaveUp,
    fun task hmem hnoticed => ?_⟩
  · rcases hending.gaveUp task hmem with h | h
    · rw [hreturned] at h
      cases h
    · rw [hreturned] at h
      cases h
  · obtain ⟨hflow, hsettled, hfree⟩ := (hsound task hmem).ended hnoticed
    exact ⟨hflow, hsettled.out_eq, hfree, hsettled.handled⟩

omit [Externals] in
/-- A ping, and the first byte of another frame. -/
def pingOps : List Op :=
  [.accept, .turn 0 (World.still.env 0),
    .read 0 (World.still.env 0) ((Frame.new .ping 1 []).encode ++ [77]), .turn 0 (World.still.env 0)]

omit [Externals] in
/-- A session has answered a request and holds part of another when the shutdown comes. -/
theorem nothing_cut_off_answered :
    letI : Externals := .plain
    ∃ s : State, s.phase = .returned true ∧
      (∃ task ∈ s.tasks, task.noticed = true ∧
        task.conn.sent = (Frame.new .pong 1 (utf8 "\x7b\x7d")).encode ∧ task.conn.buf = [77]) ∧
      (s.phase = .returned true → s.serving = 0 ∧ ∀ task, .aborted task ∉ s.streams) ∧
      (∀ task, .aborted task ∈ s.streams → s.phase = .returned false ∨ s.phase = .failed) ∧
      ∀ task ∈ s.tasks, task.noticed = true →
        task.conn.flow = .returned ∧ task.conn.out = [] ∧ task.Free ∧
          (Frame.decode task.conn.buf).1 = .ok none := by
  let _ : Externals := .plain
  have hexec : (exec (step .default) (fun _ _ => true) (.start .default none .new)
      (pingOps ++ [.signal, .written 0 19, .notice 0, .finish 0, .joined])).map
        (fun s => (decide (s.phase = .returned true),
          s.tasks.map fun task => (task.noticed, task.conn.sent, task.conn.buf))) =
      some (true, [(true, (Frame.new .pong 1 (utf8 "\x7b\x7d")).encode, [77])]) := by
    decide +kernel
  obtain ⟨s, hs, hview⟩ := Option.map_eq_some_iff.mp hexec
  obtain ⟨hphase, htasks⟩ := Prod.mk.inj hview
  obtain ⟨task, hmem, htask⟩ := List.mem_map.mp (htasks ▸ List.mem_singleton_self _)
  obtain ⟨hnoticed, hrest⟩ := Prod.mk.inj htask
  obtain ⟨hsent, hbuf⟩ := Prod.mk.inj hrest
  have hrun : Run (step .default) Free (.start .default none .new)
      (pingOps ++ [.signal, .written 0 19, .notice 0, .finish 0, .joined]) s :=
    (run_of_exec hs).weaken fun _ _ _ => trivial
  exact ⟨s, of_decide_eq_true hphase, ⟨task, hmem, hnoticed, hsent, hbuf⟩, nothing_cut_off hrun⟩

/-! ### Without a word from the clients, the server returns -/

omit [Externals] in
/-- What the server does of itself. -/
def Op.own : Op → Bool
  | turn _ _ => true
  | notice _ => true
  | finish _ => true
  | joined => true
  | _ => false

omit [Externals] in
/-- Beside it, only that the sockets take what they were given. -/
def Unasked : State → Op → Prop
  | _, .written _ _ => True
  | _, op => op.own = true

omit [Externals] in
/-- The steps a task has before it at most. -/
def Task.left (task : Task) : Nat :=
  if task.conn.flow = .next then if task.waiting then 2 else task.conn.buf.length + 3 else 1

omit [Externals] in
def Stream.left : Stream → Nat
  | serving task => task.left
  | _ => 0

omit [Externals] in
def State.left (s : State) : Nat :=
  (s.streams.map Stream.left).sum + if s.phase.closing then 1 else 0

omit [Externals] in
/-- The bytes a socket is still to take. -/
def Stream.owed : Stream → Nat
  | serving task => task.conn.sent.length - task.taken
  | _ => 0

omit [Externals] in
def State.owed (s : State) : Nat := (s.streams.map Stream.owed).sum

omit [Externals] in
theorem left_pos (task : Task) : 0 < task.left := by
  rw [Task.left]
  split_ifs <;> omega

/-- A pass of the loop handles a frame, or it ends, or the session waits. -/
theorem left_turnOver (env : Environment) {task : Task} (s : State)
    (hflow : task.conn.flow = .next) (hwaits : task.waiting = false) :
    ({ task with
      conn := ((s.view task).turnOver env).1
      waiting := ((s.view task).turnOver env).2 } : Task).left < task.left := by
  have hbefore : task.left = task.conn.buf.length + 3 := by
    rw [Task.left, if_pos hflow, hwaits]
    rfl
  have hbuf : (s.view task).buf.length = task.conn.buf.length := rfl
  rw [hbefore, Task.left]
  dsimp only
  rcases hdecode : Frame.decode (s.view task).buf with ⟨e | frame, rest⟩
  · rw [Conn.turnOver, hdecode]
    dsimp only
    rw [if_neg fun h => Flow.noConfusion h]
    omega
  · cases frame with
    | none =>
        rw [Conn.turnOver, hdecode]
        dsimp only
        rw [if_pos (by exact hflow), if_pos rfl]
        omega
    | some frame =>
        have hshort := Frame.length_lt_of_decode hdecode
        rw [Conn.turnOver, hdecode]
        dsimp only
        rw [Conn.handle_buf]
        split_ifs <;> omega

omit [Externals] in
/-- A step for one task. -/
theorem left_set (hentry : s.streams[i]? = some (.serving task)) {stream : Stream}
    (hlt : stream.left < task.left) :
    ((s.streams.set i stream).map Stream.left).sum + (if s.phase.closing then 1 else 0) < s.left :=
  Nat.add_lt_add_right (sum_map_set_lt Stream.left hentry hlt) _

theorem left_of_own (hown : op.own = true) (h : step config s op = some t) : t.left < s.left := by
  cases op with
  | turn i env =>
      rw [step] at h
      split at h
      · next task hrunning =>
          obtain ⟨hentry, hflow, _⟩ := running_eq_some hrunning
          split_ifs at h with hwaits
          obtain rfl := Option.some.inj h
          exact left_set hentry (left_turnOver env s hflow hwaits)
      · cases h
  | notice i =>
      rw [step] at h
      split at h
      · next task hrunning =>
          obtain ⟨hentry, hflow, _⟩ := running_eq_some hrunning
          split_ifs at h with hwaits
          obtain rfl := Option.some.inj h
          have hleft : task.left = 2 := by rw [Task.left, if_pos hflow, if_pos hwaits.1]
          refine left_set hentry ?_
          rw [hleft, Stream.left, Task.left, if_neg fun h => Flow.noConfusion h]
          exact Nat.one_lt_two
      · cases h
  | finish i =>
      rw [step] at h
      split at h
      · next task hentry =>
          split_ifs at h with hover
          obtain rfl := Option.some.inj h
          exact left_set hentry (left_pos task)
      · cases h
  | joined =>
      rw [step] at h
      split at h
      · next deadline hphase =>
          split_ifs at h
          obtain rfl := Option.some.inj h
          rw [State.left, State.left, hphase]
          exact Nat.lt_succ_self _
      · cases h
  | _ => cases hown

omit [Externals] in
/-- What a socket takes it no longer owes, and the tasks have as much before them as they had. -/
theorem owed_of_written {n : Nat} (hentry : s.streams[i]? = some (.serving task)) (hpos : 0 < n)
    (hle : task.taken + n ≤ task.conn.sent.length) :
    let t := { s with streams := s.streams.set i (.serving { task with taken := task.taken + n }) }
    t.left = s.left ∧ t.owed < s.owed := by
  have hsame : Stream.left (.serving { task with taken := task.taken + n }) =
      Stream.left (.serving task) := rfl
  have hleft := sum_map_set (b := .serving { task with taken := task.taken + n }) Stream.left hentry
  rw [hsame] at hleft
  refine ⟨congrArg (· + _) (Nat.add_right_cancel hleft), sum_map_set_lt Stream.owed hentry ?_⟩
  simp only [Stream.owed]
  omega

theorem rank_of_unasked (hunasked : Unasked s op) (h : step config s op = some t) :
    if op.own then t.left < s.left else t.left = s.left ∧ t.owed < s.owed := by
  by_cases hown : op.own = true
  · rw [if_pos hown]
    exact left_of_own hown h
  · rw [if_neg hown]
    cases op with
    | written i n =>
        rw [step] at h
        split at h
        · next task hentry =>
            split_ifs at h with htakes
            obtain rfl := Option.some.inj h
            exact owed_of_written hentry htakes.1 htakes.2
        · cases h
    | _ => exact absurd hunasked hown

/-- Only the end of the last task ends the phase. -/
theorem phase_of_unasked (hunasked : Unasked s op) (h : step config s op = some t) {deadline : Nat}
    (hphase : s.phase = .draining deadline ∨ s.phase = .returned true) :
    t.phase = .draining deadline ∨ t.phase = .returned true := by
  cases op with
  | turn i env =>
      rw [step] at h
      split at h
      · split_ifs at h
        obtain rfl := Option.some.inj h
        exact hphase
      · cases h
  | notice i =>
      rw [step] at h
      split at h
      · split_ifs at h
        obtain rfl := Option.some.inj h
        exact hphase
      · cases h
  | finish i =>
      rw [step] at h
      split at h
      · split_ifs at h
        obtain rfl := Option.some.inj h
        exact hphase
      · cases h
  | written i n =>
      rw [step] at h
      split at h
      · split_ifs at h
        obtain rfl := Option.some.inj h
        exact hphase
      · cases h
  | joined =>
      rw [step] at h
      split at h
      · split_ifs at h
        obtain rfl := Option.some.inj h
        exact .inr rfl
      · cases h
  | _ => cases hunasked

omit [Externals] in
theorem running_of_serving (hentry : s.streams[i]? = some (.serving task))
    (hflow : task.conn.flow = .next) (hfree : task.Free) : s.running i = some task := by
  rw [State.running, hentry]
  exact if_pos ⟨hflow, hfree⟩

/-- A task that no client keeps in a flush can go on. -/
theorem exists_own_of_free {deadline : Nat} (hphase : s.phase = .draining deadline)
    (hentry : s.streams[i]? = some (.serving task)) (hfree : task.Free) :
    ∃ op : Op, op.own = true ∧ (step config s op).isSome := by
  by_cases hflow : task.conn.flow = .next
  · have hrunning := running_of_serving hentry hflow hfree
    cases hwaits : task.waiting with
    | true =>
        refine ⟨.notice i, rfl, ?_⟩
        rw [step, hrunning]
        dsimp only
        rw [if_pos ⟨hwaits, by rw [hphase]; rfl⟩]
        rfl
    | false =>
        refine ⟨.turn i (World.still.env 0), rfl, ?_⟩
        rw [step, hrunning]
        dsimp only
        rw [if_pos hwaits]
        rfl
  · refine ⟨.finish i, rfl, ?_⟩
    rw [step, hentry]
    dsimp only
    rw [if_pos ⟨hflow, hfree⟩]
    rfl

/-- While the server waits for its tasks, it or one of them can go on, or all of them wait for their
clients to read. -/
theorem exists_own {deadline : Nat} (hphase : s.phase = .draining deadline) :
    (∃ op : Op, op.own = true ∧ (step config s op).isSome) ∨
      s.serving ≠ 0 ∧ ∀ (i : Nat) (task : Task), s.streams[i]? = some (.serving task) →
        ¬ task.Free ∧ (step config s (.written i 1)).isSome := by
  by_cases hserving : s.serving = 0
  · refine .inl ⟨.joined, rfl, ?_⟩
    rw [step, hphase]
    dsimp only
    rw [if_pos hserving]
    rfl
  by_cases hfree : ∃ (i : Nat) (task : Task), s.streams[i]? = some (.serving task) ∧ task.Free
  · obtain ⟨i, task, hentry, hfree⟩ := hfree
    exact .inl (exists_own_of_free hphase hentry hfree)
  · refine .inr ⟨hserving, fun i task hentry => ?_⟩
    have hblocked : ¬ task.Free := fun h => hfree ⟨i, task, hentry, h⟩
    refine ⟨hblocked, ?_⟩
    rw [step, hentry]
    dsimp only
    rw [if_pos ⟨Nat.one_pos, Nat.lt_of_not_le hblocked⟩]
    rfl

/-- **Completion.** From the moment of the shutdown, the server and its tasks take a bounded number of
steps of their own, and with what the sockets take these come to an end. Where none of them can take
another, the server has returned or each of its tasks is in a flush and waits for its client to read.
Once the grace is over, it returns whatever its tasks do. -/
theorem returns_of_draining {deadline : Nat} (hphase : s.phase = .draining deadline) :
    (∀ ops t, Run (step config) Unasked s ops t →
        ops.countP Op.own ≤ s.left ∧
          (t.phase = .returned true ∨ (∃ op : Op, op.own = true ∧ (step config t op).isSome) ∨
            t.serving ≠ 0 ∧ ∀ (i : Nat) (task : Task), t.streams[i]? = some (.serving task) →
              ¬ task.Free ∧ (step config t (.written i 1)).isSome)) ∧
      ¬ Endless (step config) Unasked s ∧
      (deadline ≤ s.clock → ∃ op drained, (op = .joined ∨ op = .expired) ∧
        step config s op = some { s with phase := .returned drained }) := by
  refine ⟨fun ops t hrun => ⟨?_, ?_⟩, ?_, fun hover => ?_⟩
  · have hbound := hrun.countP_add_le State.left Op.own
      fun s op t hunasked hstep => by
        have hrank := rank_of_unasked hunasked hstep
        split_ifs at hrank ⊢
        · exact hrank
        · exact hrank.1.le
    omega
  · rcases hrun.invariant (p := fun s => s.phase = .draining deadline ∨ s.phase = .returned true)
      (fun _ _ _ hs hunasked hstep => phase_of_unasked hunasked hstep hs) (.inl hphase) with
      hdraining | hreturned
    · exact .inr (exists_own hdraining)
    · exact .inl hreturned
  · refine not_endless (fun s : State => toLex (s.left, s.owed)) (fun s op t hunasked hstep => ?_) s
    have hrank := rank_of_unasked hunasked hstep
    rw [Prod.Lex.toLex_lt_toLex]
    split_ifs at hrank
    · exact .inl hrank
    · exact .inr hrank
  · by_cases hserving : s.serving = 0
    · refine ⟨.joined, true, .inl rfl, ?_⟩
      rw [step, hphase]
      exact if_pos hserving
    · refine ⟨.expired, false, .inr rfl, ?_⟩
      rw [step, hphase]
      exact if_pos ⟨hover, hserving⟩

omit [Externals] in
/-- What is left to do when the client takes the pong. -/
def lastOps : List Op := [.written 0 19, .notice 0, .finish 0, .joined]

omit [Externals] in
/-- A session is in a flush when the shutdown comes, and its client reads after all. -/
theorem returns_of_draining_flushing :
    letI : Externals := .plain
    ∃ s u : State, (∃ task, s.streams = [.serving task] ∧ ¬ task.Free) ∧
      Run (step .default) Unasked s lastOps u ∧ u.phase = .returned true ∧
      lastOps.countP Op.own ≤ s.left ∧ ¬ Endless (step .default) Unasked s ∧
      (5 * 10 ^ 9 ≤ s.clock → ∃ op drained, (op = .joined ∨ op = .expired) ∧
        step .default s op = some { s with phase := .returned drained }) := by
  let _ : Externals := .plain
  have hexec : ((exec (step .default) (fun _ _ => true) (.start .default none .new)
      (pingOps ++ [.signal])).bind fun s =>
        (exec (step .default) (fun _ _ => true) s lastOps).map fun u =>
          (decide (s.phase = .draining (5 * 10 ^ 9)), s.tasks.map (fun task => decide task.Free),
            s.serving, s.streams.length, decide (u.phase = .returned true))) =
      some (true, [false], 1, 1, true) := by
    decide +kernel
  obtain ⟨s, hs, hrest⟩ := Option.bind_eq_some_iff.mp hexec
  obtain ⟨u, hu, hview⟩ := Option.map_eq_some_iff.mp hrest
  obtain ⟨hphase, hview⟩ := Prod.mk.inj hview
  obtain ⟨htasks, hview⟩ := Prod.mk.inj hview
  obtain ⟨hserving, hview⟩ := Prod.mk.inj hview
  obtain ⟨hlength, hreturned⟩ := Prod.mk.inj hview
  obtain ⟨stream, hstreams⟩ := List.length_eq_one_iff.mp hlength
  have hblocked : ∃ task, s.streams = [.serving task] ∧ ¬ task.Free := by
    cases stream with
    | serving task =>
        refine ⟨task, hstreams, ?_⟩
        rw [State.tasks, hstreams] at htasks
        exact of_decide_eq_false (List.singleton_injective htasks)
    | _ =>
        rw [State.serving, hstreams] at hserving
        cases hserving
  have hrun : Run (step .default) Unasked s lastOps u := by
    refine (run_of_exec hu).of_forall_mem fun op hop state => ?_
    simp only [lastOps, List.mem_cons, List.not_mem_nil, or_false] at hop
    obtain rfl | rfl | rfl | rfl := hop
    · trivial
    · rfl
    · rfl
    · rfl
  obtain ⟨hruns, hends, hgrace⟩ :=
    @returns_of_draining .plain .default _ _ (of_decide_eq_true hphase)
  exact ⟨s, u, hblocked, hrun, of_decide_eq_true hreturned, (hruns _ _ hrun).1, hends, hgrace⟩

end Steps

end Daemon

end Ohmcp
