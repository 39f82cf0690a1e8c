import Ohmcp.Requests

/-! What a request leaves behind in `pending` when it returns, by whichever way it returns. -/

open Transition

namespace Ohmcp

variable [Externals]

namespace Requests

/-- The request that ends with this step and has no response: its write fails, the reader fails or
comes to the end, its 30 seconds are over, or its future is dropped. -/
def givesUp (s : State) : Op → Option UInt64
  | .writeFails id => some id
  | .timeout id => some id
  | .drop id => some id
  | .read id _ =>
      match (next s.stream).1 with
      | none => none
      | some (.ok (some raw)) => if (resolveShm s.shm raw).1.isOk then none else some id
      | some _ => some id
  | _ => none

/-- A request gives up only after a response with its id was read. -/
def Timely (s : State) (op : Op) : Prop := ∀ id, givesUp s op = some id → id ∈ s.answered

/-- Every request with an entry in `pending` is still in progress. -/
def Clean (s : State) : Prop := ∀ id ∈ s.pending, (s.phase id).inProgress = true

section Steps

variable {s t : State} {id : UInt64}

/-- The request ends, and neither `pending` nor what was read changes. -/
structure Ended (s t : State) (id : UInt64) : Prop where
  began : s.phase id ≠ .idle
  phase : t.phase id = .returned ∨ t.phase id = .dropped
  pending : t.pending = s.pending
  answered : t.answered = s.answered

omit [Externals] in
theorem Ended.leave (hbegan : s.phase id ≠ .idle) : Ended s (s.leave id) id :=
  ⟨hbegan, Or.inl (phase_move_self s id .returned), rfl, rfl⟩

/-- What a step makes of the requests that are not in progress after it. -/
structure Ends (s : State) (op : Op) (t : State) : Prop where
  gaveUp : ∀ id, givesUp s op = some id → Ended s t id
  cases : ∀ id, (t.phase id).inProgress = false → t.phase id = s.phase id ∨
    givesUp s op = some id ∨
    givesUp s op = none ∧ (∃ frame, s.phase id = .responded frame) ∧ Ended s t id
  answered : s.answered ⊆ t.answered

omit [Externals] in
theorem not_inProgress_move {phase : Phase} (hphase : phase.inProgress = true) (other : UInt64)
    (hother : ((s.move id phase).phase other).inProgress = false) :
    (s.move id phase).phase other = s.phase other := by
  by_cases hne : other = id
  · rw [hne, phase_move_self, hphase] at hother
    cases hother
  · exact phase_move_other s phase hne

omit [Externals] in
/-- The step of a request that goes on. -/
theorem Ends.of_move {op : Op} (hop : givesUp s op = none) {phase : Phase}
    (hphase : phase.inProgress = true) (hmove : t.phase = (s.move id phase).phase)
    (hanswered : s.answered ⊆ t.answered) : Ends s op t where
  gaveUp other h := by
    rw [hop] at h
    cases h
  cases other hother := by
    rw [hmove] at hother ⊢
    exact Or.inl (not_inProgress_move hphase other hother)
  answered := hanswered

omit [Externals] in
/-- A step that no request takes. -/
theorem Ends.of_phase {op : Op} (hop : givesUp s op = none) (hphase : t.phase = s.phase)
    (hanswered : s.answered ⊆ t.answered) : Ends s op t where
  gaveUp other h := by
    rw [hop] at h
    cases h
  cases other _ := Or.inl (congrFun hphase other)
  answered := hanswered

omit [Externals] in
/-- The step a request gives up with. -/
theorem Ends.of_ended {op : Op} (hop : givesUp s op = some id) (hended : Ended s t id)
    (hothers : ∀ other, other ≠ id → t.phase other = s.phase other) : Ends s op t where
  gaveUp other h := by
    obtain rfl := Option.some.inj (hop.symm.trans h)
    exact hended
  cases other _ := by
    by_cases hne : other = id
    · rw [hne]
      exact Or.inr (Or.inl hop)
    · exact Or.inl (hothers other hne)
  answered := hended.answered.symm.subset

omit [Externals] in
theorem phase_dispatch (s : State) (raw frame : Frame) :
    (s.dispatch raw frame).phase = s.phase := by
  unfold State.dispatch
  dsimp only
  split_ifs <;> rfl

omit [Externals] in
theorem answered_dispatch (s : State) (raw frame : Frame) :
    s.answered ⊆ (s.dispatch raw frame).answered := by
  unfold State.dispatch
  dsimp only
  split_ifs
  · exact Finset.subset_insert _ _
  · exact Finset.subset_insert _ _
  · exact subset_rfl

omit [Externals] in
theorem givesUp_unresolved {now : Nat} {raw : Frame} {e : String} {shm : Option ShmRing}
    (hnext : (next s.stream).1 = some (.ok (some raw)))
    (hresolve : resolveShm s.shm raw = (.error e, shm)) : givesUp s (.read id now) = some id := by
  simp only [givesUp, hnext, hresolve]
  rfl

omit [Externals] in
theorem givesUp_resolved {now : Nat} {raw frame : Frame} {shm : Option ShmRing}
    (hnext : (next s.stream).1 = some (.ok (some raw)))
    (hresolve : resolveShm s.shm raw = (.ok frame, shm)) : givesUp s (.read id now) = none := by
  simp only [givesUp, hnext, hresolve]
  rfl

theorem ends_taken {now : Nat} {raw : Frame} (hphase : s.phase id = .reading)
    (hnext : (next s.stream).1 = some (.ok (some raw)))
    (htaken : Taken { s with stream := (next s.stream).2 } id now raw t) :
    Ends s (.read id now) t := by
  cases htaken with
  | unresolved hresolve =>
      refine .of_ended (givesUp_unresolved hnext hresolve) ⟨by simp [hphase], Or.inl ?_, rfl, rfl⟩
        fun other hne => ?_
      · exact Function.update_self ..
      · exact Function.update_of_ne hne ..
  | notice hresolve => exact .of_phase (givesUp_resolved hnext hresolve) rfl subset_rfl
  | own hresolve =>
      exact .of_move (givesUp_resolved hnext hresolve) rfl rfl (Finset.subset_insert _ _)
  | @other frame shm hresolve =>
      have hanswered : s.answered ⊆ _ :=
        answered_dispatch { s with stream := (next s.stream).2, shm := shm } raw frame
      exact .of_phase (givesUp_resolved hnext hresolve) (phase_dispatch _ _ _) hanswered

/-- Every step, and every way a request ends. -/
theorem ends_step {op : Op} (hstep : step s op = some t) : Ends s op t := by
  cases op with
  | begin id watch =>
      obtain ⟨_, rfl⟩ := step_begin hstep
      exact .of_move rfl rfl rfl subset_rfl
  | test id =>
      obtain ⟨_, rfl⟩ := step_test hstep
      exact .of_move rfl rfl rfl subset_rfl
  | sent id =>
      obtain ⟨_, rfl⟩ := step_sent hstep
      exact .of_move rfl rfl rfl subset_rfl
  | writeFails id =>
      obtain ⟨⟨contended, hphase⟩, rfl⟩ := step_writeFails hstep
      exact .of_ended rfl (.leave (by simp [hphase])) fun other => phase_move_other s _
  | receive id =>
      obtain ⟨_, frame, _, rfl⟩ := step_receive hstep
      have hmove : (s.respond id frame).phase = (s.move id (.responded frame)).phase := rfl
      exact .of_move rfl rfl hmove subset_rfl
  | acquire id =>
      obtain ⟨_, _, rfl⟩ := step_acquire hstep
      exact .of_move rfl rfl rfl subset_rfl
  | tryRecv id =>
      obtain ⟨_, ⟨frame, _, rfl⟩ | ⟨_, rfl⟩⟩ := step_tryRecv hstep
      · have hmove : (s.respond id frame).phase = (s.move id (.responded frame)).phase := rfl
        exact .of_move rfl rfl hmove subset_rfl
      · exact .of_move rfl rfl rfl subset_rfl
  | read id now =>
      obtain ⟨hphase, ⟨hnext, rfl⟩ | ⟨raw, hnext, rfl⟩ | ⟨hnext, rfl⟩⟩ := step_read hstep
      · exact .of_phase (by simp only [givesUp, hnext]) rfl subset_rfl
      · exact ends_taken hphase hnext (taken _ id now raw)
      · have hgives : givesUp s (.read id now) = some id := by
          rcases hnext with hnext | ⟨e, hnext⟩
          · simp only [givesUp, hnext]
          · simp only [givesUp, hnext]
        refine .of_ended hgives ⟨by simp [hphase], Or.inl ?_, rfl, rfl⟩ fun other hne => ?_
        · exact Function.update_self ..
        · exact Function.update_of_ne hne ..
  | timeout id =>
      obtain ⟨hphase, rfl⟩ := step_timeout hstep
      refine .of_ended rfl (.leave ?_) fun other => phase_move_other s _
      rcases hphase with hphase | hphase
      · simp [hphase]
      · simp [hphase]
  | finish id moment cacheKey =>
      obtain ⟨frame, hphase, rfl⟩ := step_finish hstep
      refine ⟨fun other h => (by cases h), fun other hother => ?_, subset_rfl⟩
      by_cases hne : other = id
      · rw [hne]
        refine Or.inr (Or.inr ⟨rfl, ⟨frame, hphase⟩, by simp [hphase], Or.inl ?_, rfl, rfl⟩)
        exact phase_move_self s id .returned
      · exact Or.inl (phase_move_other s .returned hne)
  | drop id =>
      obtain ⟨hphase, rfl⟩ := step_drop hstep
      refine .of_ended rfl ⟨?_, Or.inr (phase_move_self s id .dropped), rfl, rfl⟩
        fun other => phase_move_other s _
      rcases hphase with ⟨contended, hphase⟩ | hphase | hphase
      · simp [hphase]
      · simp [hphase]
      · simp [hphase]
  | stream op =>
      obtain ⟨stream, _, _, _, rfl⟩ := step_stream hstep
      exact .of_phase rfl rfl subset_rfl
  | ring shm =>
      obtain rfl := Option.some.inj hstep
      exact .of_phase rfl rfl subset_rfl
  | listen resourceUpdated resourceListChanged =>
      obtain rfl := Option.some.inj hstep
      exact .of_phase rfl rfl subset_rfl

/-! ### The entry of a request -/

omit [Externals] in
theorem Ended.pending_iff (hended : Ended s t id) (hinv : Inv t) :
    id ∈ t.pending ↔ id ∉ s.answered := by
  have hbegan : t.phase id ≠ .idle := by
    rcases hended.phase with hphase | hphase
    · simp [hphase]
    · simp [hphase]
  rw [(hinv.consistent id).pending_iff, hended.answered]
  exact and_iff_right hbegan

/-- When a request returns, its entry is gone exactly if it did not give up before a response was
read. -/
theorem pending_of_return {op : Op} (hinv : Inv s) (hstep : step s op = some t)
    (hbefore : s.phase id ≠ .returned) (hreturned : t.phase id = .returned) :
    t.pending = s.pending ∧ (id ∉ t.pending ↔ (givesUp s op = some id → id ∈ s.answered)) := by
  have hends := ends_step hstep
  rcases hends.cases id (by rw [hreturned]; rfl) with hsame | hgives | ⟨hgives, ⟨frame, hphase⟩, hended⟩
  · exact absurd (hsame.symm.trans hreturned) hbefore
  · have hended := hends.gaveUp id hgives
    refine ⟨hended.pending, ?_⟩
    rw [hended.pending_iff (hinv.step hstep), not_not]
    exact ⟨fun h _ => h, fun h => h hgives⟩
  · have hanswered := (hinv.consistent id).responded frame hphase
    refine ⟨hended.pending, ?_⟩
    rw [hended.pending_iff (hinv.step hstep), not_not]
    exact iff_of_true hanswered fun _ => hanswered

/-- A step leaves no entry without a request exactly if no request gives up before a response was
read. -/
theorem clean_step {op : Op} (hinv : Inv s) (hclean : Clean s) (hstep : step s op = some t) :
    Clean t ↔ Timely s op := by
  have hends := ends_step hstep
  have hinv' := hinv.step hstep
  constructor
  · intro hclean' id hgives
    have hended := hends.gaveUp id hgives
    by_contra hnot
    have hin := hclean' id ((hended.pending_iff hinv').mpr hnot)
    rcases hended.phase with hphase | hphase
    · rw [hphase] at hin
      cases hin
    · rw [hphase] at hin
      cases hin
  · intro htimely id hmem
    obtain ⟨hbegan, hnot⟩ := (hinv'.consistent id).pending_iff.mp hmem
    have hfresh : id ∉ s.answered := fun hanswered => hnot (hends.answered hanswered)
    by_contra hin
    rcases hends.cases id (Bool.eq_false_iff.mpr hin) with hsame | hgives | ⟨_, ⟨frame, hphase⟩, _⟩
    · -- it was not in progress before either
      have hbefore := hclean id ((hinv.consistent id).pending_iff.mpr ⟨hsame ▸ hbegan, hfresh⟩)
      rw [hsame] at hin
      exact hin hbefore
    · exact hfresh (htimely id hgives)
    · exact hfresh ((hinv.consistent id).responded frame hphase)

omit [Externals] in
/-- The test finds another entry, and with it another request. -/
theorem Clean.contended (hclean : Clean s) (hcard : 1 < s.pending.card) (id : UInt64) :
    ∃ other, other ≠ id ∧ (s.phase other).inProgress = true := by
  obtain ⟨first, hfirst, second, hsecond, hne⟩ := Finset.one_lt_card.mp hcard
  by_cases hid : first = id
  · exact ⟨second, fun h => hne (hid.trans h.symm), hclean second hsecond⟩
  · exact ⟨first, hid, hclean first hfirst⟩

end Steps

/-! ### Runs -/

section Runs

variable {shm : Option ShmRing} {pipeline : PayloadPipeline}

omit [Externals] in
theorem clean_start : Clean (start shm pipeline) := fun id hid => absurd hid (Finset.notMem_empty id)

theorem clean_run {ops : List Op} {s : State} (hrun : Run step Timely (start shm pipeline) ops s) :
    Inv s ∧ Clean s := by
  apply hrun.invariant (p := fun s => Inv s ∧ Clean s) ?_ ⟨inv_start shm pipeline, clean_start⟩
  intro s op t hboth htimely hstep
  exact ⟨hboth.1.step hstep, (clean_step hboth.1 hboth.2 hstep).mpr htimely⟩

/-- As long as nothing is left behind, the steps are timely. -/
theorem timely_of_clean {ops : List Op} {s u : State} (hinv : Inv s)
    (hrun : Run step Free s ops u)
    (hclean : ∀ before after t, ops = before ++ after → Run step Free s before t → Clean t) :
    Run step Timely s ops u := by
  induction hrun with
  | nil s => exact .nil s
  | @cons s t u op ops hstep _ _ ih =>
      have hfirst := hclean [] (op :: ops) s rfl (.nil s)
      have hsecond := hclean [op] ops t rfl (.cons hstep trivial (.nil t))
      refine .cons hstep ((clean_step hinv hfirst hstep).mp hsecond) (ih (hinv.step hstep) ?_)
      intro before after v hsplit hbefore
      exact hclean (op :: before) after v (congrArg (op :: ·) hsplit)
        (.cons hstep trivial hbefore)

end Runs

/-- The first part is about every return, whatever happened before; the others about what is left
behind in the whole run. -/
theorem nothing_left_iff (shm : Option ShmRing) (pipeline : PayloadPipeline) (ops : List Op)
    (s : State) (hrun : Run step Free (start shm pipeline) ops s) :
    (∀ op t id, step s op = some t → s.phase id ≠ .returned → t.phase id = .returned →
      t.pending = s.pending ∧ (id ∉ t.pending ↔ (givesUp s op = some id → id ∈ s.answered))) ∧
    ((∀ before after t, ops = before ++ after → Run step Free (start shm pipeline) before t →
      Clean t) ↔ Run step Timely (start shm pipeline) ops s) ∧
    (Run step Timely (start shm pipeline) ops s → ∀ id t, step s (.test id) = some t →
      t.phase id = .writing true → ∃ other, other ≠ id ∧ (s.phase other).inProgress = true) := by
  have hinv := inv_run hrun
  refine ⟨fun op t id hstep hbefore hreturned => pending_of_return hinv hstep hbefore hreturned,
    ⟨fun hclean => timely_of_clean (inv_start shm pipeline) hrun hclean, ?_⟩, ?_⟩
  · intro htimely before after t hsplit hbefore
    rw [hsplit] at htimely
    obtain ⟨u, hfirst, _⟩ := htimely.split
    obtain rfl := (hfirst.weaken fun _ _ _ => trivial).unique hbefore
    exact (clean_run hfirst).2
  · intro htimely id t hstep hcontended
    obtain ⟨_, rfl⟩ := step_test hstep
    rw [phase_move_self] at hcontended
    exact (clean_run htimely).2.contended (of_decide_eq_true (Phase.writing.inj hcontended)) id

/-- A write fails. -/
def failedWrite : List Op := [.begin 1 false, .test 1, .writeFails 1]

/-- The next request, with nothing else to do. -/
def afterFailure : List Op := failedWrite ++ [.begin 2 false, .test 2]

theorem run_failedWrite : ∃ s, Run step Free (start none .new) failedWrite s ∧
    s.phase 1 = .returned ∧ 1 ∈ s.pending := by
  refine ⟨_, .cons rfl trivial (.cons rfl trivial (.cons rfl trivial (.nil _))), ?_, ?_⟩
  · rfl
  · decide

omit [Externals] in
theorem nothing_left_iff_failedWrite : letI : Externals := .plain
    ∃ s, Run step Free (start none .new) failedWrite s ∧
      ¬ Run step Timely (start none .new) failedWrite s := by
  let _ : Externals := .plain
  obtain ⟨s, hrun, hphase, hmem⟩ := run_failedWrite
  refine ⟨s, hrun, fun htimely => ?_⟩
  have hclean := (nothing_left_iff none .new failedWrite s hrun).2.1.mpr htimely failedWrite [] s
    (List.append_nil _).symm hrun
  have hin := hclean 1 hmem
  rw [hphase] at hin
  cases hin

omit [Externals] in
/-- The entry of the failed request stays, and the next request takes it for another one. -/
theorem failed_write_stays : letI : Externals := .plain
    ∃ s, Run step Free (start none .new) afterFailure s ∧ s.phase 1 = .returned ∧
      1 ∈ s.pending ∧ s.phase 2 = .writing true ∧
      ∀ other, other ≠ 2 → (s.phase other).inProgress = false := by
  let _ : Externals := .plain
  refine ⟨_, .cons rfl trivial (.cons rfl trivial (.cons rfl trivial (.cons rfl trivial
    (.cons rfl trivial (.nil _))))), ?_, ?_, ?_, fun other hother => ?_⟩
  · rfl
  · decide
  · rfl
  · by_cases hone : other = 1
    · rw [hone]
      rfl
    · simp [State.leave, State.move, start, hother, hone, Phase.inProgress]

end Requests

end Ohmcp
