import Mathlib.Algebra.BigOperators.Group.List.Basic
import Mathlib.Algebra.Order.Ring.Nat
import Mathlib.Tactic.Common

/-! A counting semaphore whose permits are held by entries of a list. Entries are added at the end and
replaced one at a time, so what is summed over them changes by one entry. -/

namespace Permits

variable {α : Type} {entries : List α} {i : Nat} {a b : α}

/-! ### One entry is replaced -/

theorem sum_map_set {M : Type} [AddCommMonoid M] (f : α → M) (h : entries[i]? = some a) :
    ((entries.set i b).map f).sum + f a = (entries.map f).sum + f b := by
  induction entries generalizing i with
  | nil => cases h
  | cons first rest ih =>
      cases i with
      | zero =>
          obtain rfl := Option.some.inj h
          rw [List.set_cons_zero, List.map_cons, List.map_cons, List.sum_cons, List.sum_cons,
            add_right_comm, add_comm (f b), add_right_comm]
      | succ i =>
          rw [List.set_cons_succ, List.map_cons, List.map_cons, List.sum_cons, List.sum_cons,
            add_assoc, ih h, add_assoc]

theorem getElem?_set_of_some {c : α} {j : Nat} (h : entries[i]? = some a)
    (hj : entries[j]? = some c) : (entries.set i b)[j]? = some (if i = j then b else c) := by
  rw [List.getElem?_set]
  by_cases hij : i = j
  · rw [if_pos hij, if_pos (hij ▸ (List.getElem?_eq_some_iff.mp h).1), if_pos hij]
  · rw [if_neg hij, hj, if_neg hij]

/-- A measure of the entries that the replaced one makes smaller. -/
theorem sum_map_set_lt (f : α → Nat) (h : entries[i]? = some a) (hlt : f b < f a) :
    ((entries.set i b).map f).sum < (entries.map f).sum := by
  have hadd : ((entries.set i b).map f).sum + f a < (entries.map f).sum + f a :=
    calc ((entries.set i b).map f).sum + f a
      _ = (entries.map f).sum + f b := sum_map_set f h
      _ < (entries.map f).sum + f a := Nat.add_lt_add_left hlt _
  exact Nat.lt_of_add_lt_add_right hadd

theorem countP_set_add (p : α → Bool) (h : entries[i]? = some a) :
    (entries.set i b).countP p + (if p a then 1 else 0) =
      entries.countP p + (if p b then 1 else 0) := by
  have hcount : ∀ l : List α, (l.map fun entry => if p entry then 1 else 0).sum = l.countP p := by
    intro l
    induction l with
    | nil => rfl
    | cons first rest ih => rw [List.map_cons, List.sum_cons, ih, List.countP_cons, add_comm]
  rw [← hcount, ← hcount]
  exact sum_map_set _ h

theorem countP_set_of_eq (p : α → Bool) (h : entries[i]? = some a) (hsame : p b = p a) :
    (entries.set i b).countP p = entries.countP p := by
  have hadd := countP_set_add (b := b) p h
  rw [hsame] at hadd
  exact Nat.add_right_cancel hadd

/-! ### Holders and permits left -/

/-- Every permit is either left or held by an entry. -/
def Balanced (holds : α → Bool) (entries : List α) (available total : Nat) : Prop :=
  available + entries.countP holds = total

variable {holds : α → Bool} {available total : Nat}

theorem balanced_nil : Balanced holds [] total total := rfl

theorem Balanced.le (h : Balanced holds entries available total) : entries.countP holds ≤ total :=
  (Nat.le_add_left _ _).trans_eq h

/-- No permit is left exactly when all are held. -/
theorem Balanced.eq_zero_iff (h : Balanced holds entries available total) :
    available = 0 ↔ entries.countP holds = total := by
  rw [Balanced] at h
  omega

/-- A new entry takes a permit. -/
theorem Balanced.acquire (h : Balanced holds entries available total) (hleft : available ≠ 0)
    (hholds : holds a = true) : Balanced holds (entries ++ [a]) (available - 1) total := by
  rw [Balanced] at h ⊢
  rw [List.countP_append, List.countP_singleton, if_pos hholds]
  omega

/-- A new entry gets none. -/
theorem Balanced.turnAway (h : Balanced holds entries available total) (hholds : holds a = false) :
    Balanced holds (entries ++ [a]) available total := by
  rw [Balanced, List.countP_append, List.countP_singleton, if_neg (by rw [hholds]; decide)]
  exact h

theorem Balanced.keep (h : Balanced holds entries available total) (hentry : entries[i]? = some a)
    (hsame : holds b = holds a) : Balanced holds (entries.set i b) available total := by
  rw [Balanced, countP_set_of_eq holds hentry hsame]
  exact h

/-- A holder gives its permit back. -/
theorem Balanced.release (h : Balanced holds entries available total) (hentry : entries[i]? = some a)
    (hbefore : holds a = true) (hafter : holds b = false) :
    Balanced holds (entries.set i b) (available + 1) total := by
  have hadd := countP_set_add (b := b) holds hentry
  rw [if_pos hbefore, if_neg (by rw [hafter]; decide)] at hadd
  rw [Balanced] at h ⊢
  omega

end Permits
