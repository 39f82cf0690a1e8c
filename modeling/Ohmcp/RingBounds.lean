import Ohmcp.RingIntegrity

/-! What the ring does with whatever its peer puts into a reference or into the cursors: which
references `read_release` takes, when `try_write` refuses a record although the ring is empty, and
where its copy goes. -/

open Circular Transition

namespace Ohmcp

namespace ShmRing

variable {ring : ShmRing} {offset len : Nat} {data : Bytes}

/-! ### References -/

theorem readRelease_none (h : (ring.readRelease offset len).1 = none) :
    (ring.readRelease offset len).2 = ring := by
  unfold readRelease at h ⊢
  split_ifs at h ⊢ <;> rfl

/-- A reference that passes the checks of size and lap. -/
def Placed (ring : ShmRing) (offset len : Nat) : Prop :=
  0 < len ∧ len ≤ ring.cap ∧ Contiguous ring.cap offset len

instance (ring : ShmRing) (offset len : Nat) : Decidable (ring.Placed offset len) :=
  inferInstanceAs (Decidable (_ ∧ _))

/-- What is read is what was asked for, and the tail moves behind it, wrapped. -/
theorem readRelease_eq (hcap : ring.cap ≤ maxShmCap) :
    ring.readRelease offset len =
      if ring.Placed offset len ∧ wrap64 (offset + len) ≤ ring.head then
        (some (load ring.mem (offset % ring.cap) len),
          { ring with tail := wrap64 (offset + len) })
      else (none, ring) := by
  have hsmall : maxShmCap < 2 ^ 32 := by decide
  have hmod := Nat.mod_lt offset ring.cap_pos
  unfold readRelease Placed Contiguous
  by_cases hlen : len = 0 ∨ ring.cap < len
  · rw [if_pos (by omega), if_neg (by omega)]
  · rw [wrap64_of_lt (n := offset % ring.cap + len) (by omega)]
    by_cases hlap : ring.cap < offset % ring.cap + len
    · rw [if_pos (by omega), if_neg (by omega)]
    · rw [if_neg (by omega)]
      by_cases hhead : ring.head < wrap64 (offset + len)
      · rw [if_pos hhead, if_neg (by omega)]
      · rw [if_neg hhead, if_pos (by omega)]

/-- The consumer deals with a reference as it should: it takes nothing but live cells, no sum
overflows, a refusal changes nothing and the tail never moves back. -/
structure Rejects (ring : ShmRing) (offset len : Nat) : Prop where
  live : ∀ bytes, (ring.readRelease offset len).1 = some bytes →
    0 < len ∧ ring.tail ≤ offset ∧ offset + len ≤ ring.head ∧ Contiguous ring.cap offset len
  lap_fits : 0 < len → len ≤ ring.cap → offset % ring.cap + len < 2 ^ 64
  stop_fits : ring.Placed offset len → offset + len < 2 ^ 64
  unchanged : (ring.readRelease offset len).1 = none → (ring.readRelease offset len).2 = ring
  forward : ∀ bytes, (ring.readRelease offset len).1 = some bytes →
    ring.tail ≤ (ring.readRelease offset len).2.tail

/-- A reference the checks of size and lap refuse, or one that neither reaches the wrap nor starts
before the tail, if it ends at the head or before. -/
def Current (ring : ShmRing) (offset len : Nat) : Prop :=
  ring.Placed offset len →
    offset + len < 2 ^ 64 ∧ (offset + len ≤ ring.head → ring.tail ≤ offset)

instance (ring : ShmRing) (offset len : Nat) : Decidable (ring.Current offset len) :=
  inferInstanceAs (Decidable (_ → _))

/-- References the ring deals with as it should are the current ones. -/
theorem rejects_iff_current (hcap : ring.cap ≤ maxShmCap) :
    ring.Rejects offset len ↔ ring.Current offset len := by
  have hsmall : maxShmCap < 2 ^ 32 := by decide
  have hmod := Nat.mod_lt offset ring.cap_pos
  refine ⟨fun h hplaced => ⟨h.stop_fits hplaced, fun hhead => ?_⟩, fun h => ?_⟩
  · have hstop : wrap64 (offset + len) = offset + len := wrap64_of_lt (h.stop_fits hplaced)
    refine (h.live (load ring.mem (offset % ring.cap) len) ?_).2.1
    rw [readRelease_eq hcap, hstop, if_pos ⟨hplaced, hhead⟩]
  · have hread : ∀ bytes, (ring.readRelease offset len).1 = some bytes →
        ring.Placed offset len ∧ offset + len ≤ ring.head ∧ ring.tail ≤ offset ∧
          (ring.readRelease offset len).2.tail = offset + len := by
      intro bytes hbytes
      rw [readRelease_eq hcap] at hbytes ⊢
      split_ifs at hbytes ⊢ with htaken
      obtain ⟨hplaced, hhead⟩ := htaken
      obtain ⟨hlt, hcurrent⟩ := h hplaced
      rw [wrap64_of_lt hlt] at hhead ⊢
      exact ⟨hplaced, hhead, hcurrent hhead, rfl⟩
    refine ⟨?_, fun _ _ => by omega, fun hplaced => (h hplaced).1, readRelease_none, ?_⟩
    · intro bytes hbytes
      obtain ⟨hplaced, hhead, htail, _⟩ := hread bytes hbytes
      exact ⟨hplaced.1, htail, hhead, hplaced.2.2⟩
    · intro bytes hbytes
      obtain ⟨_, _, htail, hafter⟩ := hread bytes hbytes
      rw [hafter]
      exact htail.trans (Nat.le_add_right _ _)

end ShmRing

/-! ### Runs with any references -/

namespace RefRun

inductive Op where
  | write (data : Bytes)
  | read (offset len : Nat)

def step (ring : ShmRing) : Op → Option ShmRing
  | .write data => some (ring.tryWrite data).2
  | .read offset len => some (ring.readRelease offset len).2

/-- The cursors stay below `2^64` at every write that succeeds, and no reference is stale. -/
def Meets (ring : ShmRing) : Op → Prop
  | .write data => ring.WriteFits data
  | .read offset len => ring.Current offset len

instance (ring : ShmRing) (op : Op) : Decidable (Meets ring op) :=
  match op with
  | .write data => inferInstanceAs (Decidable (ring.WriteFits data))
  | .read offset len => inferInstanceAs (Decidable (ring.Current offset len))

/-- The cursors are in order, at most one capacity apart. -/
structure Ordered (cap : Nat) (ring : ShmRing) : Prop where
  cap_eq : ring.cap = cap
  tail_le : ring.tail ≤ ring.head
  head_le : ring.head ≤ ring.tail + ring.cap

theorem ordered_step {cap : Nat} (hle : cap ≤ maxShmCap) (ring : ShmRing) (op : Op)
    (ring' : ShmRing) (h : Ordered cap ring) (hmeets : Meets ring op)
    (hstep : step ring op = some ring') : Ordered cap ring' := by
  obtain ⟨rfl, htail, hhead⟩ := h
  cases op with
  | write data =>
      obtain rfl := Option.some.inj hstep
      cases hwrite : (ring.tryWrite data).1 with
      | none =>
          rw [ShmRing.tryWrite_none hwrite]
          exact ⟨rfl, htail, hhead⟩
      | some pos =>
          obtain ⟨hpos, _, _, hroom, hlt, hring⟩ := ShmRing.tryWrite_some (ShmRing.WriteFits.cursorFits hmeets hwrite) htail hwrite
          have hskip := le_nextFit ring.cap ring.head data.length
          rw [hring]
          refine ⟨rfl, ?_, ?_⟩
          · rw [ShmRing.head_written hlt, ShmRing.tail_written]
            omega
          · rw [ShmRing.head_written hlt]
            exact hroom
  | read offset len =>
      obtain rfl := Option.some.inj hstep
      rw [ShmRing.readRelease_eq hle]
      split_ifs with htaken
      · obtain ⟨hplaced, hstop⟩ := htaken
        obtain ⟨hlt, hcurrent⟩ := hmeets hplaced
        rw [wrap64_of_lt hlt] at hstop ⊢
        have hforward := hcurrent hstop
        refine ⟨rfl, hstop, ?_⟩
        change ring.head ≤ offset + len + ring.cap
        omega
      · exact ⟨rfl, htail, hhead⟩

/-- **References.** As long as no reference is stale or reaches the wrap and no write does, the cursors
stay in order, at most one capacity apart. In every such state, the references that are dealt with as
they should be are the current ones. -/
theorem references_rejected {cap : Nat} {hcap : 0 < cap} (hle : cap ≤ maxShmCap) {ops : List Op}
    {ring : ShmRing} (hrun : Run step Meets (.create cap hcap) ops ring) :
    (ring.tail ≤ ring.head ∧ ring.head ≤ ring.tail + cap) ∧
      ∀ offset len, ring.Rejects offset len ↔ ring.Current offset len := by
  have hordered : Ordered cap ring :=
    hrun.invariant (ordered_step hle) ⟨rfl, Nat.le_refl 0, Nat.zero_le _⟩
  obtain ⟨rfl, htail, hhead⟩ := hordered
  exact ⟨⟨htail, hhead⟩, fun offset len => ShmRing.rejects_iff_current hle⟩

/-- Two records, both released. -/
theorem run_released : ∃ ring, Run step Meets (.create 8 (by decide))
    [.write [1, 2, 3, 4], .write [5, 6, 7, 8], .read 0 4, .read 4 4] ring ∧
      (ring.Current 8 4 ∧ ¬ ring.Current 0 4) ∧ (ring.readRelease 0 4).2.tail < ring.tail :=
  ⟨_, .cons rfl (by decide) (.cons rfl (by decide) (.cons rfl (by decide)
    (.cons rfl (by decide) (.nil _)))), by decide, by decide⟩

/-- Behind two released records, a reference to what is not written yet is dealt with as it should. -/
theorem references_rejected_released : ∃ ring, Run step Meets (.create 8 (by decide))
    [.write [1, 2, 3, 4], .write [5, 6, 7, 8], .read 0 4, .read 4 4] ring ∧ ring.Rejects 8 4 := by
  obtain ⟨ring, hrun, ⟨hcurrent, _⟩, _⟩ := run_released
  exact ⟨ring, hrun, ((references_rejected (by decide) hrun).2 8 4).mpr hcurrent⟩

/-- A reference that is replayed: the ring gives out the released cells once more, and moves the tail
back. -/
theorem stale_reference_taken : ∃ ring, Run step Meets (.create 8 (by decide))
    [.write [1, 2, 3, 4], .write [5, 6, 7, 8], .read 0 4, .read 4 4] ring ∧
      ¬ ring.Rejects 0 4 ∧ (ring.readRelease 0 4).2.tail < ring.tail := by
  obtain ⟨ring, hrun, ⟨_, hstale⟩, hback⟩ := run_released
  have hcap : ring.cap ≤ maxShmCap := by
    rw [(hrun.invariant (ordered_step (by decide)) ⟨rfl, le_rfl, Nat.zero_le _⟩).cap_eq]
    decide
  exact ⟨ring, hrun, fun h => hstale ((ShmRing.rejects_iff_current hcap).mp h), hback⟩

end RefRun

/-! ### The empty ring -/

namespace ShmRing

variable {ring : ShmRing} {data : Bytes}

/-- With all records released, a write succeeds if and only if the record fits in what is left of the
lap, or the space the skip loses and the record fit in one capacity. -/
theorem tryWrite_isSome_of_empty (hcap : ring.cap ≤ maxShmCap) (hhead : ring.head < 2 ^ 64)
    (hempty : ring.tail = ring.head) (hpos : 0 < data.length) (hlen : data.length ≤ ring.cap) :
    (ring.tryWrite data).1.isSome ↔
      ring.head % ring.cap + data.length ≤ ring.cap ∨ data.length ≤ ring.head % ring.cap := by
  have hsmall : maxShmCap < 2 ^ 32 := by decide
  have hmod := Nat.mod_lt ring.head ring.cap_pos
  have hoccupied : wrapSub64 (wrap64 (ring.writePos data.length + data.length)) ring.tail =
      (if ring.cap < ring.head % ring.cap + data.length then ring.cap - ring.head % ring.cap
        else 0) + data.length := by
    unfold writePos wrapSub64 wrap64
    split_ifs <;> omega
  unfold tryWrite
  rw [if_neg (by omega)]
  dsimp only
  rw [hoccupied]
  split_ifs <;> simp only [Option.isSome_none, Option.isSome_some, Bool.false_eq_true, false_iff,
    true_iff] <;> omega

end ShmRing

namespace RingRun

theorem head_lt_step (s : State) (op : Op) (t : State) (h : s.ring.head < 2 ^ 64)
    (hstep : step s op = some t) : t.ring.head < 2 ^ 64 := by
  cases op with
  | write data =>
      rw [step_write] at hstep
      obtain rfl := Option.some.inj hstep
      unfold ShmRing.tryWrite
      dsimp only
      split_ifs
      · exact h
      · exact h
      · exact Nat.mod_lt _ (Nat.two_pow_pos 64)
  | read skip =>
      simp only [step] at hstep
      split at hstep
      · cases hstep
      · cases hstep
        unfold ShmRing.readRelease
        split_ifs
        · exact h
        · exact h
        · exact h

/-- **The empty ring.** In every state of every run in which all records are released, a record that
fits the capacity is taken if and only if it fits in the rest of the lap or is no longer than the part
of the lap behind the cursor. -/
theorem empty_takes_iff {cap : Nat} {hcap : 0 < cap} (hle : cap ≤ maxShmCap) {ops : List Op}
    {s : State} (hrun : Run step Free (init cap hcap) ops s) (hempty : s.ring.tail = s.ring.head)
    {data : Bytes} (hpos : 0 < data.length) (hlen : data.length ≤ cap) :
    (s.ring.tryWrite data).1.isSome ↔
      s.ring.head % cap + data.length ≤ cap ∨ data.length ≤ s.ring.head % cap := by
  have hhead : s.ring.head < 2 ^ 64 :=
    hrun.invariant (p := fun s => s.ring.head < 2 ^ 64)
      (fun s op t h _ hstep => head_lt_step s op t h hstep) (Nat.two_pow_pos 64)
  have hown : s.ring.cap = cap :=
    hrun.invariant (p := fun s => s.ring.cap = cap)
      (fun s op t h _ hstep => (cap_step s op t hstep).trans h) rfl
  subst hown
  exact ShmRing.tryWrite_isSome_of_empty hle hhead hempty hpos hlen

/-- Five cells of eight written and released. -/
theorem run_five : ∃ s, Run step Free (init 8 (by decide)) [.write [1, 2, 3, 4, 5], .read 0] s ∧
    s.ring.tail = s.ring.head ∧ s.ring.head = 5 ∧ s.ring.cap = 8 ∧
      (s.ring.tryWrite [1, 2, 3, 4, 5, 6]).1 = none :=
  ⟨_, .cons rfl trivial (.cons rfl trivial (.nil _)), by decide, by decide, by decide, by decide⟩

theorem empty_takes_five : ∃ s, Run step Free (init 8 (by decide))
    [.write [1, 2, 3, 4, 5], .read 0] s ∧ (s.ring.tryWrite [1, 2, 3, 4, 5]).1.isSome := by
  obtain ⟨s, hrun, hempty, hhead, _⟩ := run_five
  refine ⟨s, hrun, (empty_takes_iff (by decide) hrun hempty (by decide) (by decide)).mpr ?_⟩
  rw [hhead]
  decide

/-- All records are released, and a record of six bytes does not get into the eight cells. -/
theorem empty_refuses : ∃ s, Run step Free (init 8 (by decide))
    [.write [1, 2, 3, 4, 5], .read 0] s ∧ s.ring.tail = s.ring.head ∧
      6 ≤ s.ring.cap ∧ (s.ring.tryWrite [1, 2, 3, 4, 5, 6]).1 = none := by
  obtain ⟨s, hrun, hempty, _, hcap, hrefused⟩ := run_five
  exact ⟨s, hrun, hempty, by omega, hrefused⟩

end RingRun

/-! ### Any cursors -/

namespace ShmRing

variable {ring : ShmRing} {data : Bytes}

/-- The skip to the next lap reaches `2^64` and the record runs over the end of the cells there,
although the occupancy that is computed allows it. -/
def Overruns (ring : ShmRing) (len : Nat) : Prop :=
  len ≤ ring.cap ∧ ring.cap < ring.head % ring.cap + len ∧
    2 ^ 64 + ring.cap < ring.head + (ring.cap - ring.head % ring.cap) + len ∧
    wrapSub64 (wrap64 (ring.head + (ring.cap - ring.head % ring.cap) + len)) ring.tail ≤ ring.cap

instance (ring : ShmRing) (len : Nat) : Decidable (ring.Overruns len) :=
  inferInstanceAs (Decidable (_ ∧ _))

/-- A write runs over the end of the cells only where the skip reaches `2^64`. -/
theorem writePos_overrun (hcap : ring.cap ≤ maxShmCap) (hhead : ring.head < 2 ^ 64) {len : Nat}
    (hlen : len ≤ ring.cap) :
    ¬ Contiguous ring.cap (ring.writePos len) len ↔
      ring.cap < ring.head % ring.cap + len ∧
        2 ^ 64 + ring.cap < ring.head + (ring.cap - ring.head % ring.cap) + len := by
  have hsmall : maxShmCap < 2 ^ 32 := by decide
  have hmod := Nat.mod_lt ring.head ring.cap_pos
  unfold Contiguous writePos
  rw [wrap64_of_lt (n := ring.head % ring.cap + len) (by omega)]
  by_cases hskip : ring.cap < ring.head % ring.cap + len
  · rw [if_pos hskip]
    by_cases hwrap : ring.head + (ring.cap - ring.head % ring.cap) < 2 ^ 64
    · have hlap := nextFit_mod_of_lt ring.cap_pos hskip
      rw [nextFit, if_pos hskip] at hlap
      rw [wrap64_of_lt hwrap, hlap]
      omega
    · have hpos : wrap64 (ring.head + (ring.cap - ring.head % ring.cap)) =
          ring.head + (ring.cap - ring.head % ring.cap) - 2 ^ 64 := by
        unfold wrap64
        omega
      rw [hpos, Nat.mod_eq_of_lt (by omega)]
      omega
  · rw [if_neg hskip]
    omega

/-- The copy of a write, if there is one, goes to cells of the ring, where the consumer's check of the
lap accepts it. -/
structure StaysIn (ring : ShmRing) (data : Bytes) : Prop where
  contiguous : ∀ pos, (ring.tryWrite data).1 = some pos → Contiguous ring.cap pos data.length
  outside : ∀ i, ring.cap ≤ i → (ring.tryWrite data).2.mem i = ring.mem i

/-- No sum or difference of a write of `len` bytes wraps. -/
structure Exact (ring : ShmRing) (len : Nat) : Prop where
  lap_lt : ring.head % ring.cap + len < 2 ^ 64
  skip_lt : ring.head + (ring.cap - ring.head % ring.cap) < 2 ^ 64
  stop_lt : ring.writePos len + len < 2 ^ 64
  tail_le : ring.tail ≤ ring.writePos len + len

theorem wrap64_writePos_add (hcap : ring.cap ≤ maxShmCap) {len : Nat}
    (hlen : len ≤ ring.cap) (hskip : ring.cap < ring.head % ring.cap + len) :
    wrap64 (ring.writePos len + len) =
      wrap64 (ring.head + (ring.cap - ring.head % ring.cap) + len) := by
  have hsmall : maxShmCap < 2 ^ 32 := by decide
  have hmod := Nat.mod_lt ring.head ring.cap_pos
  unfold writePos
  rw [wrap64_of_lt (n := ring.head % ring.cap + len) (by omega), if_pos hskip]
  unfold wrap64
  omega

/-- **The bounds of a write.** Whatever the two cursors hold: a write stays within the cells if and only
if it does not overrun them behind a skip that reaches `2^64`. With the cursors in order and two
capacities below `2^64`, nothing wraps. -/
theorem write_stays_in_iff (hcap : ring.cap ≤ maxShmCap) (hhead : ring.head < 2 ^ 64)
    (data : Bytes) :
    (ring.StaysIn data ↔ ¬ ring.Overruns data.length) ∧
      (ring.tail ≤ ring.head → ring.head ≤ ring.tail + ring.cap →
        ring.head + 2 * ring.cap < 2 ^ 64 → data.length ≤ ring.cap → ring.Exact data.length) := by
  have hsmall : maxShmCap < 2 ^ 32 := by decide
  have hmod := Nat.mod_lt ring.head ring.cap_pos
  refine ⟨⟨fun h hover => ?_, fun h => ?_⟩, fun htail _ hroom hlen => ?_⟩
  · obtain ⟨hlen, hskip, hfar, hoccupied⟩ := hover
    refine (writePos_overrun hcap hhead hlen).mpr ⟨hskip, hfar⟩ (h.contiguous _ ?_)
    rw [← wrap64_writePos_add hcap hlen hskip] at hoccupied
    rw [tryWrite, if_neg (by omega)]
    dsimp only
    rw [if_neg (Nat.not_lt.mpr hoccupied)]
  · have hwrite : ∀ pos, (ring.tryWrite data).1 = some pos →
        Contiguous ring.cap pos data.length ∧ (ring.tryWrite data).2 = ring.written pos data := by
      intro pos hpos
      unfold tryWrite at hpos ⊢
      dsimp only at hpos ⊢
      split_ifs at hpos ⊢ with hsize hfull
      obtain rfl := Option.some.inj hpos
      refine ⟨?_, rfl⟩
      have hlen : data.length ≤ ring.cap := by omega
      by_contra hout
      obtain ⟨hskip, hfar⟩ := (writePos_overrun hcap hhead hlen).mp hout
      rw [wrap64_writePos_add hcap hlen hskip] at hfull
      exact h ⟨hlen, hskip, hfar, Nat.not_lt.mp hfull⟩
    refine ⟨fun pos hpos => (hwrite pos hpos).1, fun i hi => ?_⟩
    cases hpos : (ring.tryWrite data).1 with
    | none => rw [tryWrite_none hpos]
    | some pos =>
        obtain ⟨hfit, hring⟩ := hwrite pos hpos
        rw [hring]
        unfold Contiguous at hfit
        exact dif_neg (by omega)
  · have hfits : ring.CursorFits data.length := by
      unfold CursorFits nextFit
      split_ifs <;> omega
    have hpos := writePos_eq hfits
    have hle := le_nextFit ring.cap ring.head data.length
    refine ⟨by omega, by omega, ?_, ?_⟩
    · rw [hpos]
      exact hfits
    · rw [hpos]
      omega

/-- Six cells, the head one below `2^64`, the tail at 2: a record of five bytes runs over the end. -/
def nearWrap : ShmRing := ⟨6, 2 ^ 64 - 1, 2, fun _ => 0, by decide⟩

/-- Six cells, the head at 4 and the tail at 3. -/
def ordered : ShmRing := ⟨6, 4, 3, fun _ => 0, by decide⟩

/-- A record of three bytes is written below `2^64` and stays in, though its end is beyond; with ordered
cursors it is written in the next lap, and nothing wraps. -/
theorem write_stays_in_three :
    (nearWrap.tryWrite [1, 2, 3]).1 = some (2 ^ 64 - 1) ∧ nearWrap.StaysIn [1, 2, 3] ∧
      (ordered.tryWrite [1, 2, 3]).1 = some 6 ∧ ordered.Exact 3 := by
  have hstays : nearWrap.StaysIn [1, 2, 3] :=
    (write_stays_in_iff (by decide) (by decide) [1, 2, 3]).1.mpr (by decide)
  have hexact : ordered.Exact 3 := (write_stays_in_iff (by decide) (by decide) [1, 2, 3]).2
    (by decide) (by decide) (by decide) (by decide)
  exact ⟨by decide, hstays, by decide, hexact⟩

/-- The byte behind the six cells is overwritten, and the offset is one the consumer refuses. -/
theorem write_overruns : (nearWrap.tryWrite [1, 2, 3, 4, 5]).1 = some 2 ∧
    (nearWrap.tryWrite [1, 2, 3, 4, 5]).2.mem nearWrap.cap = 5 ∧
      ¬ nearWrap.StaysIn [1, 2, 3, 4, 5] := by
  refine ⟨by decide, by decide, fun h => ?_⟩
  exact absurd (h.contiguous 2 (by decide)) (by decide)

end ShmRing

end Ohmcp
