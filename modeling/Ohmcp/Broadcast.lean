import Mathlib.Algebra.Order.Group.Nat
import Mathlib.Tactic.Common

/-! A bounded broadcast channel as one of its receivers sees it: every message goes to every
receiver, the channel keeps the latest ones only, and a receiver that falls behind loses the messages
that were overwritten. -/

namespace Broadcast

/-- A receiver of a channel that keeps `capacity` messages. -/
structure Receiver (α : Type) (capacity : Nat) where
  /-- All messages sent so far. -/
  sent : List α
  /-- The position of the message to be received next. -/
  next : Nat
  next_le : next ≤ sent.length

/-- The outcome of a receive. -/
inductive Received (α : Type) where
  | message (index : Nat) (a : α)
  /-- Messages were overwritten. -/
  | lagged
  | empty

namespace Receiver

variable {α : Type} {capacity : Nat} {r r' : Receiver α capacity} {index : Nat} {a : α}

/-- A new receiver gets what is sent from now on. -/
def subscribe (sent : List α) : Receiver α capacity := ⟨sent, sent.length, le_rfl⟩

def send (r : Receiver α capacity) (a : α) : Receiver α capacity where
  sent := r.sent ++ [a]
  next := r.next
  next_le := by
    rw [List.length_append]
    exact r.next_le.trans (Nat.le_add_right _ _)

/-- A receiver that lags is moved to the oldest message kept. -/
def recv (r : Receiver α capacity) : Received α × Receiver α capacity :=
  if h : r.next < r.sent.length then
    if r.sent.length ≤ r.next + capacity then
      (.message r.next r.sent[r.next], { r with next := r.next + 1, next_le := h })
    else
      (.lagged, { r with next := r.sent.length - capacity, next_le := Nat.sub_le _ _ })
  else (.empty, r)

/-- No message is left. -/
def Drained (r : Receiver α capacity) : Prop := r.next = r.sent.length

/-- The message is not overwritten before it is received. -/
def Keeps (r : Receiver α capacity) (index : Nat) : Prop :=
  index < r.next ∨ r.sent.length ≤ index + capacity

@[simp] theorem sent_recv (r : Receiver α capacity) : r.recv.2.sent = r.sent := by
  rw [recv]
  split_ifs <;> rfl

theorem of_recv_message (h : r.recv = (.message index a, r')) :
    index = r.next ∧ r.sent[index]? = some a ∧ r'.sent = r.sent ∧ r'.next = r.next + 1 := by
  unfold recv at h
  split_ifs at h with hlt hkept
  · cases h
    exact ⟨rfl, List.getElem?_eq_getElem hlt, rfl, rfl⟩
  all_goals cases h

/-- A position never moves back. -/
theorem next_le_next_recv (r : Receiver α capacity) : r.next ≤ r.recv.2.next := by
  unfold recv
  split_ifs with hlt hkept
  · exact Nat.le_succ r.next
  · change r.next ≤ r.sent.length - capacity
    omega
  · exact le_rfl

/-- Past a message that is kept, a receive moves only by handing it out. -/
theorem recv_of_keeps (hkeeps : r.Keeps index) (hle : r.next ≤ index) (ha : r.sent[index]? = some a)
    (hpast : index < r.recv.2.next) : r.recv = (.message index a, r.recv.2) := by
  obtain ⟨hlt, hget⟩ := List.getElem?_eq_some_iff.mp ha
  have hkept : r.sent.length ≤ index + capacity :=
    hkeeps.resolve_left (Nat.not_lt.mpr hle)
  have hsome : r.next < r.sent.length := lt_of_le_of_lt hle hlt
  by_cases hlag : r.sent.length ≤ r.next + capacity
  · have hrecv : r.recv = (.message r.next r.sent[r.next],
        { r with next := r.next + 1, next_le := hsome }) := by
      rw [recv, dif_pos hsome, if_pos hlag]
    rw [hrecv] at hpast ⊢
    have hindex : r.next = index := Nat.le_antisymm hle (Nat.lt_succ_iff.mp hpast)
    subst hindex
    rw [hget]
  · rw [recv, dif_pos hsome, if_neg hlag] at hpast
    change index < r.sent.length - capacity at hpast
    omega

end Receiver

end Broadcast
