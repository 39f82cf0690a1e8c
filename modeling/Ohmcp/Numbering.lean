import Mathlib.Data.List.Nodup
import Mathlib.Data.List.Range
import Mathlib.Tactic.Common

/-! A log of values drawn by several owners, each of which takes the values of its own sequence one
after the other. Where two sequences have a value in common only if they start alike, some value is
drawn twice exactly when two of the owners that drew start alike. -/

namespace Numbering

variable {ω ν : Type} [DecidableEq ω]

/-- What one owner drew. -/
def drawn (owner : ω) (log : List (ω × ν)) : List ν :=
  (log.filter fun entry => entry.1 = owner).map Prod.snd

/-- Every owner drew the first values of its sequence, in order. -/
def Numbered (nth : ω → ℕ → ν) (log : List (ω × ν)) : Prop :=
  ∀ owner, drawn owner log = (List.range (drawn owner log).length).map (nth owner)

section Drawn

variable {nth : ω → ℕ → ν} {log : List (ω × ν)} {owner other : ω} {value : ν}

theorem drawn_snoc_self :
    drawn owner (log ++ [(owner, value)]) = drawn owner log ++ [value] := by
  simp [drawn, List.filter_append]

theorem drawn_snoc_of_ne (h : other ≠ owner) :
    drawn owner (log ++ [(other, value)]) = drawn owner log := by
  simp [drawn, List.filter_append, h]

theorem mem_drawn : value ∈ drawn owner log ↔ (owner, value) ∈ log := by
  simp [drawn]

theorem drawn_eq_nil (h : ∀ entry ∈ log, entry.1 ≠ owner) : drawn owner log = [] := by
  rw [drawn, List.filter_eq_nil_iff.mpr fun entry hentry => by simpa using h entry hentry, List.map_nil]

theorem sublist_drawn {value' : ν} (h : [(owner, value), (owner, value')].Sublist log) :
    [value, value'].Sublist (drawn owner log) := by
  have hfilter := (h.filter fun entry => entry.1 = owner).map Prod.snd
  simpa [drawn] using hfilter

theorem numbered_nil : Numbered nth [] := fun _ => rfl

theorem Numbered.snoc (h : Numbered nth log) (owner : ω) :
    Numbered nth (log ++ [(owner, nth owner (drawn owner log).length)]) := by
  intro other
  by_cases heq : owner = other
  · subst heq
    rw [drawn_snoc_self, List.length_append, List.length_singleton, List.range_succ, List.map_append,
      ← h owner, List.map_singleton]
  · rw [drawn_snoc_of_ne heq]
    exact h other

theorem Numbered.nodup (h : Numbered nth log) {bound : ℕ}
    (hinj : ∀ i < bound, ∀ j < bound, nth owner i = nth owner j → i = j)
    (hfew : (drawn owner log).length ≤ bound) : (drawn owner log).Nodup := by
  rw [h owner]
  refine List.Nodup.map_on (fun i hi j hj heq => ?_) List.nodup_range
  exact hinj i (by rw [List.mem_range] at hi; omega) j (by rw [List.mem_range] at hj; omega) heq

/-- An owner that drew something drew its first value. -/
theorem Numbered.first (h : Numbered nth log) (hmem : (owner, value) ∈ log) :
    (owner, nth owner 0) ∈ log := by
  rw [← mem_drawn] at hmem ⊢
  have hpos : 0 < (drawn owner log).length := List.length_pos_of_mem hmem
  rw [h owner]
  exact List.mem_map.mpr ⟨0, List.mem_range.mpr hpos, rfl⟩

end Drawn

/-- Owners with one key never draw one value twice exactly when the sequences of those that drew start
differently. -/
theorem Numbered.pairwise_iff {κ : Type} {nth : ω → ℕ → ν} {log : List (ω × ν)}
    (h : Numbered nth log) (key : ω → κ) {bound : ℕ}
    (hinj : ∀ owner, ∀ i < bound, ∀ j < bound, nth owner i = nth owner j → i = j)
    (hapart : ∀ owner other i j, nth owner i = nth other j → nth owner 0 = nth other 0)
    (hfew : ∀ owner, (drawn owner log).length ≤ bound) :
    log.Pairwise (fun first second => key first.1 = key second.1 → first.2 ≠ second.2) ↔
      ∀ first ∈ log, ∀ second ∈ log, key first.1 = key second.1 →
        nth first.1 0 = nth second.1 0 → first.1 = second.1 := by
  constructor
  · intro hpairwise first hfirst second hsecond hkey hstart
    by_contra hne
    have hsymm : Std.Symm fun first second : ω × ν =>
        key first.1 = key second.1 → first.2 ≠ second.2 := by
      refine ⟨fun first second hdiffer hkey heq => ?_⟩
      exact hdiffer hkey.symm heq.symm
    have hentries : (first.1, nth first.1 0) ≠ (second.1, nth second.1 0) := by
      intro heq
      exact hne (Prod.mk.inj heq).1
    exact hpairwise.forall (h.first hfirst) (h.first hsecond) hentries hkey hstart
  · intro hstarts
    refine List.pairwise_iff_forall_sublist.mpr ?_
    rintro ⟨owner, value⟩ ⟨other, value'⟩ hsublist hkey heq
    dsimp only at hkey heq
    subst heq
    have hfirst : (owner, value) ∈ log := hsublist.subset (by simp)
    have hsecond : (other, value) ∈ log := hsublist.subset (by simp)
    -- both values have a number in the sequence of their owner
    have hnumber : ∀ owner, (owner, value) ∈ log → ∃ i, nth owner i = value := by
      intro owner hmem
      rw [← mem_drawn, h owner] at hmem
      obtain ⟨i, _, hi⟩ := List.mem_map.mp hmem
      exact ⟨i, hi⟩
    obtain ⟨i, hi⟩ := hnumber owner hfirst
    obtain ⟨j, hj⟩ := hnumber other hsecond
    obtain rfl : owner = other :=
      hstarts _ hfirst _ hsecond hkey (hapart owner other i j (hi.trans hj.symm))
    have hnodup := h.nodup (hinj owner) (hfew owner)
    exact (List.nodup_cons.mp (hnodup.sublist (sublist_drawn hsublist))).1 List.mem_cons_self

end Numbering
