import Ohmcp.Daemon
import Ohmcp.Permits

/-! Runs of the daemon: no more sessions than permits, who is on the access list, and a shutdown that
neither cuts a request off nor waits for a client. -/

open Transition Permits

namespace Ohmcp

variable [Externals]

namespace Daemon

/-! ### What a step does -/

/-- How a running task moves on, with the bodies of the `Auth` frames it accepts. -/
inductive Moves (s : State) (task : Task) : Task → List AuthParams → Prop where
  | handles (env : Environment) (frame : Frame) (rest : Bytes) :
      Moves s task
        { task with conn := (s.view task).handle (.within env) frame rest, waiting := false }
        (AuthRuns.acceptedParams env s.shared task.conn.session frame).toList
  | dries (hnone : (Frame.decode task.conn.buf).1 = .ok none) :
      Moves s task { task with conn := (s.view task).flush, waiting := true } []
  | fills (chunk : Bytes) (hwaits : task.waiting = true)
      (hnone : (Frame.decode (task.conn.buf ++ chunk)).1 = .ok none) :
      Moves s task
        { task with conn := { s.view task with buf := task.conn.buf ++ chunk }, waiting := true } []
  | fails (buf : Bytes) (e : CoreError) :
      Moves s task
        { task with
          conn := ({ s.view task with buf := buf } : Conn).fail (.core e), waiting := false } []
  | closes (hwaits : task.waiting = true) :
      Moves s task { task with conn := (s.view task).close, waiting := false } []
  | notifies (event : ResourceEvent) (hwaits : task.waiting = true) :
      Moves s task { task with conn := (s.view task).notify event } []
  | ends (hwaits : task.waiting = true) :
      Moves s task { task with
        conn := { (s.view task).flush with flow := .returned }, waiting := false, noticed := true } []

/-- What its socket does to a task. -/
inductive Drains (task : Task) : Task → Prop where
  | takes (n : Nat) (hpos : 0 < n) (hle : task.taken + n ≤ task.conn.sent.length) :
      Drains task { task with taken := task.taken + n }
  | breaks (failure : Failure) (hwrites : task.conn.flow = .next ∨ ¬ task.Free) :
      Drains task (task.broken failure)

inductive Changes (s : State) : State → Prop where
  /-- No stream is touched. -/
  | aside (clock : Nat) (registry : ToolRegistry) (phase : Phase)
      (hover : s.phase.over = true → phase = s.phase)
      (hjoined : phase = .returned true → s.phase = .returned true ∨ s.serving = 0) :
      Changes s { s with
        clock := clock, shared := { s.shared with registry := registry }, phase := phase }
  | admits (hphase : s.phase = .accepting) (hleft : s.available ≠ 0) :
      Changes s { s with
        available := s.available - 1
        streams := s.streams ++ [.serving (.new s.shared)] }
  | turnsAway (hphase : s.phase = .accepting) (hnone : s.available = 0) :
      Changes s { s with streams := s.streams ++ [.rejecting] }
  | rejects (i : Nat) (written : Bool) (hentry : s.streams[i]? = some .rejecting) :
      Changes s { s with
        streams := s.streams.set i (.rejected (if written then busyFrame.encode else [])) }
  | moves (i : Nat) (task task' : Task) (accepted : List AuthParams)
      (hrunning : s.running i = some task) (hmoves : Moves s task task' accepted) :
      Changes s { s.put i task' with verified := s.verified ++ accepted }
  | drains (i : Nat) (task task' : Task) (hentry : s.streams[i]? = some (.serving task))
      (hdrains : Drains task task') :
      Changes s { s with streams := s.streams.set i (.serving task') }
  | finishes (i : Nat) (task : Task) (hentry : s.streams[i]? = some (.serving task))
      (hflow : task.conn.flow ≠ .next) (hfree : task.Free) :
      Changes s { s with
        available := s.available + 1, streams := s.streams.set i (.closed task) }
  | aborts (i : Nat) (task : Task) (hentry : s.streams[i]? = some (.serving task))
      (hover : s.phase.over = true) :
      Changes s { s with
        available := s.available + 1, streams := s.streams.set i (.aborted task) }

section Steps

variable {config : ServerConfig} {s t : State} {op : Op} {i : Nat} {task : Task}

omit [Externals] in
theorem running_eq_some (h : s.running i = some task) :
    s.streams[i]? = some (.serving task) ∧ task.conn.flow = .next ∧ task.Free := by
  unfold State.running at h
  split at h
  · next other hentry =>
      split_ifs at h with hruns
      obtain rfl := Option.some.inj h
      exact ⟨hentry, hruns⟩
  · cases h

theorem moves_turn (env : Environment) :
    Moves s task
      { task with conn := ((s.view task).turnOver env).1, waiting := ((s.view task).turnOver env).2 }
      ((s.view task).upcoming.bind fun frame =>
        AuthRuns.acceptedParams env s.shared task.conn.session frame).toList := by
  rcases hdecode : Frame.decode (s.view task).buf with ⟨e | frame, rest⟩
  · rw [Conn.turnOver, Conn.upcoming, hdecode]
    exact .fails task.conn.buf e
  · cases frame with
    | none =>
        rw [Conn.turnOver, Conn.upcoming, hdecode]
        exact .dries (congrArg Prod.fst hdecode)
    | some frame =>
        rw [Conn.turnOver, Conn.upcoming, hdecode]
        exact .handles env frame rest

theorem moves_read (env : Environment) (chunk : Bytes) (hwaits : task.waiting = true) :
    Moves s task
      { task with
        conn := ((s.view task).readOn env chunk).1, waiting := ((s.view task).readOn env chunk).2 }
      (({ s.view task with buf := task.conn.buf ++ chunk } : Conn).upcoming.bind fun frame =>
        AuthRuns.acceptedParams env s.shared task.conn.session frame).toList := by
  have hbuf : (s.view task).buf = task.conn.buf := rfl
  rcases hdecode : Frame.decode (task.conn.buf ++ chunk) with ⟨e | frame, rest⟩
  · rw [Conn.readOn, Conn.upcoming, hbuf]
    dsimp only
    rw [hdecode]
    exact .fails _ e
  · cases frame with
    | none =>
        rw [Conn.readOn, Conn.upcoming, hbuf]
        dsimp only
        rw [hdecode]
        exact .fills chunk hwaits (congrArg Prod.fst hdecode)
    | some frame =>
        rw [Conn.readOn, Conn.upcoming, hbuf]
        dsimp only
        rw [hdecode]
        exact .handles env frame rest

theorem changes_of_step (h : step config s op = some t) : Changes s t := by
  have hput : ∀ i task task', s.running i = some task → Moves s task task' [] →
      Changes s (s.put i task') := by
    intro i task task' hrunning hmoves
    have hchanges := Changes.moves i task task' [] hrunning hmoves
    rw [List.append_nil] at hchanges
    exact hchanges
  cases op with
  | tick elapsed =>
      obtain rfl := Option.some.inj h
      exact .aside _ _ _ (fun _ => rfl) .inl
  | accept =>
      rw [step] at h
      split_ifs at h with hphase hnone
      · obtain rfl := Option.some.inj h
        exact .turnsAway hphase hnone
      · obtain rfl := Option.some.inj h
        exact .admits hphase hnone
  | acceptFails =>
      rw [step] at h
      split_ifs at h with hphase
      obtain rfl := Option.some.inj h
      refine .aside s.clock s.shared.registry .failed (fun hover => ?_) (fun hreturned => ?_)
      · rw [hphase] at hover
        cases hover
      · cases hreturned
  | reject i written =>
      rw [step] at h
      split at h
      · next hentry =>
          obtain rfl := Option.some.inj h
          exact .rejects i written hentry
      · cases h
  | turn i env =>
      rw [step] at h
      split at h
      · next task hrunning =>
          split_ifs at h
          obtain rfl := Option.some.inj h
          exact .moves i task _ _ hrunning (moves_turn env)
      · cases h
  | read i env chunk =>
      rw [step] at h
      split at h
      · next task hrunning =>
          split_ifs at h with hwaits hend
          · obtain rfl := Option.some.inj h
            exact hput i task _ hrunning (.closes hwaits.1)
          · obtain rfl := Option.some.inj h
            exact .moves i task _ _ hrunning (moves_read env chunk hwaits.1)
      · cases h
  | event i event =>
      rw [step] at h
      split at h
      · next task hrunning =>
          split_ifs at h with hwaits
          obtain rfl := Option.some.inj h
          exact hput i task _ hrunning (.notifies event hwaits.1)
      · cases h
  | written i n =>
      rw [step] at h
      split at h
      · next task hentry =>
          split_ifs at h with htakes
          obtain rfl := Option.some.inj h
          exact .drains i task _ hentry (.takes n htakes.1 htakes.2)
      · cases h
  | breaks i failure =>
      rw [step] at h
      split at h
      · next task hentry =>
          split_ifs at h with hwrites
          obtain rfl := Option.some.inj h
          exact .drains i task _ hentry (.breaks failure hwrites)
      · cases h
  | notice i =>
      rw [step] at h
      split at h
      · next task hrunning =>
          split_ifs at h with hwaits
          obtain rfl := Option.some.inj h
          exact hput i task _ hrunning (.ends hwaits.1)
      · cases h
  | finish i =>
      rw [step] at h
      split at h
      · next task hentry =>
          split_ifs at h with hover
          obtain rfl := Option.some.inj h
          exact .finishes i task hentry hover.1 hover.2
      · cases h
  | signal =>
      rw [step] at h
      split_ifs at h with hphase
      obtain rfl := Option.some.inj h
      refine .aside s.clock s.shared.registry _ (fun hover => ?_) (fun hreturned => ?_)
      · rw [hphase] at hover
        cases hover
      · cases hreturned
  | joined =>
      rw [step] at h
      split at h
      · next deadline hphase =>
          split_ifs at h with hnone
          obtain rfl := Option.some.inj h
          refine .aside s.clock s.shared.registry _ (fun hover => ?_) (fun _ => .inr hnone)
          rw [hphase] at hover
          cases hover
      · cases h
  | expired =>
      rw [step] at h
      split at h
      · next deadline hphase =>
          split_ifs at h with hexpired
          obtain rfl := Option.some.inj h
          refine .aside s.clock s.shared.registry _ (fun hover => ?_) (fun hreturned => ?_)
          · rw [hphase] at hover
            cases hover
          · cases hreturned
      · cases h
  | abort i =>
      rw [step] at h
      split at h
      · next task hentry =>
          split_ifs at h with hover
          obtain rfl := Option.some.inj h
          exact .aborts i task hentry hover
      · cases h
  | update uri text =>
      obtain rfl := Option.some.inj h
      exact .aside _ _ _ (fun _ => rfl) .inl
  | add uri name mime text =>
      obtain rfl := Option.some.inj h
      exact .aside _ _ _ (fun _ => rfl) .inl

/-! ### The limit -/

theorem Changes.balanced {total : Nat} (h : Changes s t)
    (hbalanced : Balanced Stream.holds s.streams s.available total) :
    Balanced Stream.holds t.streams t.available total := by
  cases h with
  | aside clock registry phase _ _ => exact hbalanced
  | admits hphase hleft => exact hbalanced.acquire hleft rfl
  | turnsAway hphase hnone => exact hbalanced.turnAway rfl
  | rejects i written hentry => exact hbalanced.keep hentry rfl
  | moves i task task' accepted hrunning hmoves =>
      exact hbalanced.keep (running_eq_some hrunning).1 rfl
  | drains i task task' hentry hdrains => exact hbalanced.keep hentry rfl
  | finishes i task hentry hflow hfree => exact hbalanced.release hentry rfl rfl
  | aborts i task hentry hover => exact hbalanced.release hentry rfl rfl

/-- A task was made for the stream. -/
def Stream.admitted : Stream → Bool
  | serving _ => true
  | closed _ => true
  | aborted _ => true
  | _ => false

/-- What a stream that was turned away gets. -/
def Stream.Refused : Stream → Prop
  | rejecting => True
  | rejected sent => sent = [] ∨ sent = busyFrame.encode
  | _ => False

/-- What was decided when a stream was accepted is never changed. -/
def Stream.Keeps (before after : Stream) : Prop :=
  after.admitted = before.admitted ∧ (before.Refused → after.Refused)

theorem Changes.keeps (h : Changes s t) {stream : Stream} (hstream : s.streams[i]? = some stream) :
    ∃ after, t.streams[i]? = some after ∧ stream.Keeps after := by
  have hsame : stream.Keeps stream := ⟨rfl, id⟩
  have hadded : ∀ new, (s.streams ++ [new])[i]? = some stream := fun new =>
    (List.getElem?_append_left (List.getElem?_eq_some_iff.mp hstream).1).trans hstream
  have hset : ∀ {j before after}, s.streams[j]? = some before → before.Keeps after →
      ∃ after', (s.streams.set j after)[i]? = some after' ∧ stream.Keeps after' := by
    intro j before after hbefore hkeeps
    rw [getElem?_set_of_some hbefore hstream]
    by_cases hij : j = i
    · subst hij
      obtain rfl := Option.some.inj (hbefore.symm.trans hstream)
      exact ⟨after, congrArg some (if_pos rfl), hkeeps⟩
    · exact ⟨stream, congrArg some (if_neg hij), hsame⟩
  cases h with
  | aside clock registry phase _ _ => exact ⟨stream, hstream, hsame⟩
  | admits hphase hleft => exact ⟨stream, hadded _, hsame⟩
  | turnsAway hphase hnone => exact ⟨stream, hadded _, hsame⟩
  | rejects j written hentry =>
      refine hset hentry ⟨rfl, fun _ => ?_⟩
      cases written with
      | true => exact .inr rfl
      | false => exact .inl rfl
  | moves j task task' accepted hrunning hmoves =>
      exact hset (running_eq_some hrunning).1 ⟨rfl, id⟩
  | drains j task task' hentry hdrains => exact hset hentry ⟨rfl, id⟩
  | finishes j task hentry hflow hfree => exact hset hentry ⟨rfl, id⟩
  | aborts j task hentry hover => exact hset hentry ⟨rfl, id⟩

theorem keeps_of_run {ops : List Op} (hrun : Run (step config) Free s ops t) {stream : Stream}
    (hstream : s.streams[i]? = some stream) :
    ∃ after, t.streams[i]? = some after ∧ stream.Keeps after := by
  refine hrun.invariant (p := fun u => ∃ after, u.streams[i]? = some after ∧ stream.Keeps after)
    ?_ ⟨stream, hstream, rfl, id⟩
  rintro u op v ⟨after, hafter, hkept⟩ _ hstep
  obtain ⟨later, hlater, hkeeps⟩ := (changes_of_step hstep).keeps hafter
  exact ⟨later, hlater, hkeeps.1.trans hkept.1, fun hrefused => hkeeps.2 (hkept.2 hrefused)⟩

theorem balanced_of_run {token : Option Bytes} {registry : ToolRegistry} {ops : List Op}
    (hrun : Run (step config) Free (.start config token registry) ops s) :
    Balanced Stream.holds s.streams s.available config.maxConnections :=
  hrun.invariant (fun _ _ _ hbalanced _ hstep => (changes_of_step hstep).balanced hbalanced)
    balanced_nil

/-- **Limit.** Never are more sessions served than the limit allows. A stream that is accepted is
served if and only if fewer are being served at that moment, and whatever happens afterwards, one
that was turned away gets nothing but the busy frame. -/
theorem admitted_iff {token : Option Bytes} {registry : ToolRegistry} {ops ops' : List Op}
    {u : State} (hrun : Run (step config) Free (.start config token registry) ops s)
    (haccept : step config s .accept = some t) (hlater : Run (step config) Free t ops' u) :
    s.serving ≤ config.maxConnections ∧
      ∃ stream, u.streams[s.streams.length]? = some stream ∧
        (stream.admitted = true ↔ s.serving < config.maxConnections) ∧
        (stream.admitted = false → stream.Refused) := by
  have hbalanced := balanced_of_run hrun
  have hle : s.serving ≤ config.maxConnections := hbalanced.le
  have hfull : s.available = 0 ↔ s.serving = config.maxConnections := hbalanced.eq_zero_iff
  refine ⟨hle, ?_⟩
  have hlast : ∀ new : Stream, (s.streams ++ [new])[s.streams.length]? = some new :=
    fun _ => List.getElem?_concat_length
  rw [step] at haccept
  split_ifs at haccept with hphase hnone
  · obtain rfl := Option.some.inj haccept
    obtain ⟨stream, hstream, hadmitted, hrefused⟩ := keeps_of_run hlater (hlast .rejecting)
    refine ⟨stream, hstream, ?_, fun _ => hrefused trivial⟩
    rw [hadmitted]
    exact iff_of_false Bool.false_ne_true (hfull.mp hnone).not_lt
  · obtain rfl := Option.some.inj haccept
    obtain ⟨stream, hstream, hadmitted, _⟩ :=
      keeps_of_run hlater (hlast (.serving (.new s.shared)))
    refine ⟨stream, hstream, ?_, fun hturned => ?_⟩
    · rw [hadmitted]
      exact iff_of_true rfl (hle.lt_of_ne fun heq => hnone (hfull.mpr heq))
    · rw [hadmitted] at hturned
      cases hturned

omit [Externals] in
/-- With one permit, the second of two streams is turned away. -/
theorem admitted_iff_second :
    letI : Externals := .plain
    let config : ServerConfig := ⟨1, 0⟩
    ∃ s u : State, s.serving = 1 ∧ s.serving ≤ config.maxConnections ∧
      ∃ stream, u.streams[s.streams.length]? = some stream ∧
        (stream.admitted = true ↔ s.serving < config.maxConnections) ∧
        (stream.admitted = false → stream.Refused) := by
  let _ : Externals := .plain
  have hrun : Run (step ⟨1, 0⟩) Free (.start ⟨1, 0⟩ none .new) [.accept] _ :=
    .cons rfl trivial (.nil _)
  exact ⟨_, _, rfl, @admitted_iff _ ⟨1, 0⟩ _ _ none .new [.accept] [.reject 1 true] _ hrun rfl
    (.cons rfl trivial (.nil _))⟩

end Steps

end Daemon

end Ohmcp
