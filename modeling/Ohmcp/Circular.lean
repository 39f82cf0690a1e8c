import Mathlib.Order.Interval.Finset.Nat
import Mathlib.Tactic.Common

/-! Contiguous records in a circular address space: logical offsets grow without bound, offset `i`
lives in cell `i % cap`, and a record never crosses the end of a lap. -/

namespace Circular

variable {α : Type}

/-- Copy `data` to the cells from `base` on. -/
def store (mem : Nat → α) (base : Nat) (data : List α) : Nat → α :=
  fun i => if h : base ≤ i ∧ i - base < data.length then data.get ⟨i - base, h.2⟩ else mem i

/-- Copy `len` cells out, from `base` on. -/
def load (mem : Nat → α) (base len : Nat) : List α := (List.range len).map fun i => mem (base + i)

@[simp] theorem length_load (mem : Nat → α) (base len : Nat) : (load mem base len).length = len := by
  rw [load, List.length_map, List.length_range]

theorem load_store_self (mem : Nat → α) (base : Nat) (data : List α) :
    load (store mem base data) base data.length = data := by
  apply List.ext_getElem (length_load _ _ _)
  intro i _ hi
  have hcell : base ≤ base + i ∧ i < data.length := ⟨Nat.le_add_right _ _, hi⟩
  simp only [load, List.getElem_map, List.getElem_range, store, Nat.add_sub_cancel_left,
    dif_pos hcell, List.get_eq_getElem]

theorem load_store_of_disjoint (mem : Nat → α) (base other len : Nat) (data : List α)
    (h : base + data.length ≤ other ∨ other + len ≤ base) :
    load (store mem base data) other len = load mem other len := by
  apply List.map_congr_left
  intro i hi
  have hi' := List.mem_range.mp hi
  exact dif_neg (by omega)

/-- `len` cells from `offset` on lie in one lap. -/
def Contiguous (cap offset len : Nat) : Prop := offset % cap + len ≤ cap

instance (cap offset len : Nat) : Decidable (Contiguous cap offset len) :=
  inferInstanceAs (Decidable (_ ≤ _))

/-- The first offset from `pos` on at which `len` cells are contiguous. -/
def nextFit (cap pos len : Nat) : Nat :=
  if cap < pos % cap + len then pos + (cap - pos % cap) else pos

theorem le_nextFit (cap pos len : Nat) : pos ≤ nextFit cap pos len := by
  unfold nextFit
  split <;> omega

theorem nextFit_mod_of_lt {cap pos len : Nat} (hcap : 0 < cap) (h : cap < pos % cap + len) :
    nextFit cap pos len % cap = 0 := by
  have hdiv := Nat.mod_add_div pos cap
  have hlt := Nat.mod_lt pos hcap
  have hnext : pos + (cap - pos % cap) = cap * (pos / cap + 1) := by
    rw [Nat.mul_add, Nat.mul_one]
    omega
  rw [nextFit, if_pos h, hnext, Nat.mul_mod_right]

theorem contiguous_nextFit {cap pos len : Nat} (hcap : 0 < cap) (hlen : len ≤ cap) :
    Contiguous cap (nextFit cap pos len) len := by
  by_cases h : cap < pos % cap + len
  · rw [Contiguous, nextFit_mod_of_lt hcap h, Nat.zero_add]
    exact hlen
  · rw [nextFit, if_neg h]
    exact Nat.le_of_not_lt h

/-- The cell of a logical offset inside a contiguous record. -/
theorem Contiguous.mod_add {cap offset len i : Nat} (h : Contiguous cap offset len) (hi : i < len) :
    (offset + i) % cap = offset % cap + i := by
  unfold Contiguous at h
  rw [Nat.add_mod, Nat.mod_eq_of_lt (show i < cap by omega)]
  exact Nat.mod_eq_of_lt (by omega)

/-- The cells of two records do not meet. -/
def Apart (cap left leftLen right rightLen : Nat) : Prop :=
  left % cap + leftLen ≤ right % cap ∨ right % cap + rightLen ≤ left % cap

instance (cap left leftLen right rightLen : Nat) :
    Decidable (Apart cap left leftLen right rightLen) := inferInstanceAs (Decidable (_ ∨ _))

theorem Apart.symm {cap left leftLen right rightLen : Nat}
    (h : Apart cap left leftLen right rightLen) : Apart cap right rightLen left leftLen := Or.symm h

/-- Distinct offsets of one window of `cap` offsets have distinct cells. -/
theorem mod_ne_of_window {cap low i j : Nat} (hlow : low ≤ i) (hij : i < j) (hj : j < low + cap) :
    i % cap ≠ j % cap := by
  intro h
  have hmem : ∀ k, low ≤ k → k < low + cap → k ∈ (Finset.Ico low (low + cap) : Set Nat) :=
    fun k hk hk' => by simp [hk, hk']
  have := Nat.mod_injOn_Ico low cap (hmem i hlow (by omega)) (hmem j (by omega) hj) h
  omega

/-- Two contiguous records that follow one another inside one window do not share cells. -/
theorem apart_of_window {cap low left leftLen right rightLen : Nat} (hleftLen : 0 < leftLen)
    (hrightLen : 0 < rightLen) (hlow : low ≤ left)
    (hfollow : left + leftLen ≤ right) (hhigh : right + rightLen ≤ low + cap)
    (hleft : Contiguous cap left leftLen) (hright : Contiguous cap right rightLen) :
    Apart cap left leftLen right rightLen := by
  by_contra hmeet
  simp only [Apart, not_or, Nat.not_le] at hmeet
  obtain ⟨hl, hr⟩ := hmeet
  -- the later of the two first cells belongs to both records
  obtain ⟨i, hi, j, hj, hij⟩ : ∃ i < leftLen, ∃ j < rightLen, left % cap + i = right % cap + j := by
    rcases Nat.le_total (left % cap) (right % cap) with h | h
    · exact ⟨right % cap - left % cap, by omega, 0, by omega, by omega⟩
    · exact ⟨0, by omega, left % cap - right % cap, by omega, by omega⟩
  have hcells : (left + i) % cap ≠ (right + j) % cap :=
    mod_ne_of_window (show low ≤ left + i by omega) (by omega) (by omega)
  rw [hleft.mod_add hi, hright.mod_add hj, hij] at hcells
  exact hcells rfl

/-- Records that are apart share no cell. -/
theorem Apart.mod_ne {cap left leftLen right rightLen i j : Nat}
    (h : Apart cap left leftLen right rightLen) (hleft : Contiguous cap left leftLen)
    (hright : Contiguous cap right rightLen) (hi : i < leftLen) (hj : j < rightLen) :
    (left + i) % cap ≠ (right + j) % cap := by
  rw [hleft.mod_add hi, hright.mod_add hj]
  rcases h with h | h <;> omega

end Circular
