import Mathlib.Order.WellFounded
import Mathlib.Tactic.Common

/-! Runs of a labelled transition system whose steps may be disabled, with a condition that every
step of the run meets, and the induction rules the developments on top of it use. -/

namespace Transition

variable {σ ι : Type}

/-- A run from one state to another: each step is enabled and meets the condition in the state it
is taken in. -/
inductive Run (step : σ → ι → Option σ) (meets : σ → ι → Prop) : σ → List ι → σ → Prop where
  | nil (s : σ) : Run step meets s [] s
  | cons {s t u : σ} {l : ι} {ls : List ι} (hstep : step s l = some t) (hmeets : meets s l)
      (hrest : Run step meets t ls u) : Run step meets s (l :: ls) u

/-- The condition that no step can fail. -/
def Free : σ → ι → Prop := fun _ _ => True

variable {step : σ → ι → Option σ} {meets : σ → ι → Prop}

namespace Run

/-- What every step keeps, a run keeps. -/
theorem invariant {p : σ → Prop}
    (hstep : ∀ s l t, p s → meets s l → step s l = some t → p t) {s u : σ} {ls : List ι}
    (hrun : Run step meets s ls u) (hinit : p s) : p u := by
  induction hrun with
  | nil s => exact hinit
  | cons h hmeets _ ih => exact ih (hstep _ _ _ hinit hmeets h)

theorem append {s t u : σ} {ls ls' : List ι} (hfirst : Run step meets s ls t)
    (hsecond : Run step meets t ls' u) : Run step meets s (ls ++ ls') u := by
  induction hfirst with
  | nil s => exact hsecond
  | cons h hmeets _ ih => exact .cons h hmeets (ih hsecond)

/-- A run over a list that ends with `l` is a run and one more step. -/
theorem snoc {s t u : σ} {ls : List ι} {l : ι} (hrun : Run step meets s ls t)
    (hstep : step t l = some u) (hmeets : meets t l) : Run step meets s (ls ++ [l]) u :=
  hrun.append (.cons hstep hmeets (.nil u))

theorem split {s u : σ} {ls ls' : List ι} (hrun : Run step meets s (ls ++ ls') u) :
    ∃ t, Run step meets s ls t ∧ Run step meets t ls' u := by
  induction ls generalizing s with
  | nil => exact ⟨s, .nil s, hrun⟩
  | cons l ls ih =>
      cases hrun with
      | cons h hmeets hrest =>
          obtain ⟨t, hfirst, hsecond⟩ := ih hrest
          exact ⟨t, .cons h hmeets hfirst, hsecond⟩

/-- The labels determine where a run ends. -/
theorem unique {s u u' : σ} {ls : List ι} (hrun : Run step meets s ls u)
    (hrun' : Run step meets s ls u') : u = u' := by
  induction hrun with
  | nil s =>
      cases hrun'
      rfl
  | cons h _ _ ih =>
      cases hrun' with
      | cons h' _ hrest' =>
          obtain rfl := Option.some.inj (h.symm.trans h')
          exact ih hrest'

/-- A weaker condition has the same run. -/
theorem weaken {meets' : σ → ι → Prop} (himp : ∀ s l, meets s l → meets' s l) {s u : σ}
    {ls : List ι} (hrun : Run step meets s ls u) : Run step meets' s ls u := by
  induction hrun with
  | nil s => exact .nil s
  | cons h hmeets _ ih => exact .cons h (himp _ _ hmeets) ih

/-- A condition on the labels alone. -/
theorem of_forall_mem {meets' : σ → ι → Prop} {s u : σ} {ls : List ι} (hrun : Run step meets s ls u)
    (hall : ∀ l ∈ ls, ∀ s, meets' s l) : Run step meets' s ls u := by
  induction hrun with
  | nil s => exact .nil s
  | cons h _ _ ih =>
      obtain ⟨hfirst, hrest⟩ := List.forall_mem_cons.mp hall
      exact .cons h (hfirst _) (ih hrest)

/-- Where each step keeps a property exactly if it meets a condition, a run keeps it exactly if all
its steps do. -/
theorem good_iff {p good : σ → Prop} {meets' : σ → ι → Prop}
    (hinv : ∀ s l t, p s → meets s l → step s l = some t → p t)
    (hstep : ∀ s l t, p s → meets s l → step s l = some t → (good t ↔ good s ∧ meets' s l))
    {s u : σ} {ls : List ι} (hrun : Run step meets s ls u) (hinit : p s) :
    good u ↔ good s ∧ Run step meets' s ls u := by
  induction hrun with
  | nil s => exact (and_iff_left (.nil s)).symm
  | cons h hmeets _ ih =>
      rw [ih (hinv _ _ _ hinit hmeets h), hstep _ _ _ hinit hmeets h, and_assoc]
      refine and_congr_right fun _ => ⟨fun hboth => .cons h hboth.1 hboth.2, fun hall => ?_⟩
      cases hall with
      | cons h' hmeets' hrest =>
          obtain rfl := Option.some.inj (h.symm.trans h')
          exact ⟨hmeets', hrest⟩

/-- A run is matched by what an abstract system makes of the same labels. -/
theorem simulate {τ : Type} {next : τ → ι → τ} {related : σ → τ → Prop}
    (hstep : ∀ s a l t, related s a → meets s l → step s l = some t → related t (next a l))
    {s u : σ} {ls : List ι} (hrun : Run step meets s ls u) {a : τ} (hinit : related s a) :
    related u (ls.foldl next a) := by
  induction hrun generalizing a with
  | nil s => exact hinit
  | cons h hmeets _ ih => exact ih (hstep _ _ _ _ hinit hmeets h)

/-- Where the steps that count make a measure smaller and the others make it no larger, no more of
them count than the measure had at first. -/
theorem countP_add_le (rank : σ → Nat) (counts : ι → Bool)
    (hstep : ∀ s l t, meets s l → step s l = some t →
      if counts l then rank t < rank s else rank t ≤ rank s) {s u : σ} {ls : List ι}
    (hrun : Run step meets s ls u) : ls.countP counts + rank u ≤ rank s := by
  induction hrun with
  | nil s => exact Nat.le_of_eq (Nat.zero_add _)
  | @cons s t u l ls h hmeets _ ih =>
      have hrank := hstep _ _ _ hmeets h
      rw [List.countP_cons]
      split_ifs at hrank ⊢ <;> omega

/-- Where every state short of the goal has a step that keeps the invariant and makes a measure
smaller, a run reaches the goal. -/
theorem exists_of_progress {α : Type} {smaller : α → α → Prop} (hwf : WellFounded smaller)
    {p goal : σ → Prop} (rank : σ → α)
    (hprogress : ∀ s, p s → ¬ goal s →
      ∃ l t, step s l = some t ∧ meets s l ∧ p t ∧ smaller (rank t) (rank s)) :
    ∀ s, p s → ∃ ls t, Run step meets s ls t ∧ p t ∧ goal t := by
  intro s
  induction hrank : rank s using hwf.induction generalizing s with
  | _ a ih =>
      intro hp
      by_cases hgoal : goal s
      · exact ⟨[], s, .nil s, hp, hgoal⟩
      · obtain ⟨l, t, hstep, hmeets, ht, hlt⟩ := hprogress s hp hgoal
        obtain ⟨ls, u, hrun, hu, hreached⟩ := ih (rank t) (hrank ▸ hlt) t rfl ht
        exact ⟨l :: ls, u, .cons hstep hmeets hrun, hu, hreached⟩

end Run

/-- There are steps that go on for ever. -/
def Endless (step : σ → ι → Option σ) (meets : σ → ι → Prop) (s : σ) : Prop :=
  ∃ (states : Nat → σ) (labels : Nat → ι), states 0 = s ∧
    ∀ n, meets (states n) (labels n) ∧ step (states n) (labels n) = some (states (n + 1))

theorem not_endless {α : Type} [LT α] [WellFoundedLT α] (rank : σ → α)
    (hstep : ∀ s l t, meets s l → step s l = some t → rank t < rank s) (s : σ) :
    ¬ Endless step meets s := by
  rintro ⟨states, labels, _, hsteps⟩
  obtain ⟨n, hn⟩ := WellFounded.not_rel_apply_succ (r := (· < ·)) fun n => rank (states n)
  exact hn (hstep _ _ _ (hsteps n).1 (hsteps n).2)

/-- Takes the steps of a list as long as they are enabled and pass a test. -/
def exec (step : σ → ι → Option σ) (test : σ → ι → Bool) : σ → List ι → Option σ
  | s, [] => some s
  | s, l :: ls => if test s l then (step s l).bind fun t => exec step test t ls else none

theorem run_of_exec {test : σ → ι → Bool} {s u : σ} {ls : List ι}
    (h : exec step test s ls = some u) : Run step (fun s l => test s l = true) s ls u := by
  induction ls generalizing s with
  | nil =>
      obtain rfl := Option.some.inj h
      exact .nil s
  | cons l ls ih =>
      rw [exec] at h
      split_ifs at h with htest
      obtain ⟨t, hstep, hrest⟩ := Option.bind_eq_some_iff.mp h
      exact .cons hstep htest (ih hrest)

/-! ### Histories, the newest event first -/

section History

variable {ε : Type} {happened ended : ε → Prop} {event : ε} {history : List ε}

/-- Such an event happened, and none since that ends what it began. -/
def Since (happened ended : ε → Prop) (history : List ε) : Prop :=
  ∃ later event earlier, history = later ++ event :: earlier ∧ happened event ∧
    ∀ event' ∈ later, ¬ ended event'

theorem not_since_nil : ¬ Since happened ended [] := by
  rintro ⟨later, event, earlier, heq, _⟩
  exact List.cons_ne_nil event earlier (List.append_eq_nil_iff.mp heq.symm).2

theorem since_cons : Since happened ended (event :: history) ↔
    happened event ∨ ¬ ended event ∧ Since happened ended history := by
  constructor
  · rintro ⟨later, event', earlier, heq, hhappened, hlater⟩
    cases later with
    | nil =>
        obtain ⟨rfl, rfl⟩ := List.cons.inj heq
        exact Or.inl hhappened
    | cons last later =>
        obtain ⟨rfl, rfl⟩ := List.cons.inj heq
        obtain ⟨hlast, hlater⟩ := List.forall_mem_cons.mp hlater
        exact Or.inr ⟨hlast, later, event', earlier, rfl, hhappened, hlater⟩
  · rintro (hhappened | ⟨hlast, later, event', earlier, rfl, hhappened, hlater⟩)
    · exact ⟨[], event, history, rfl, hhappened, fun _ h => absurd h List.not_mem_nil⟩
    · exact ⟨event :: later, event', earlier, rfl, hhappened,
        List.forall_mem_cons.mpr ⟨hlast, hlater⟩⟩

end History

end Transition
