import Ohmcp.FrameStream

/-! The flushes of a writer, byte by byte: the inner writer accepts any number of bytes a step, and a
flush may be dropped or fail between two steps. What it has accepted by then, the writer does not
know. -/

open Transition

namespace Ohmcp

namespace Flushing

/-! ### The system -/

structure State where
  writer : FrameWriter
  /-- How far the `write_all` of the flush that is running has come. -/
  progress : Option Nat
  /-- What the inner writer has accepted. -/
  accepted : Bytes
  queued : List Frame

inductive Op where
  | queue (frame : Frame)
  /-- A flush begins; with nothing in the buffer it returns at once. -/
  | flush
  /-- The inner writer accepts so many bytes. -/
  | accept (count : Nat)
  /-- The future of the flush is dropped, or the inner writer fails. -/
  | interrupt
  /-- The flush returns `Ok`. -/
  | finish

def init : State := ⟨.new, none, [], []⟩

def step (s : State) : Op → Option State
  | .queue frame =>
      match s.progress with
      | none => some { s with writer := s.writer.queue frame, queued := s.queued ++ [frame] }
      | some _ => none
  | .flush =>
      match s.progress with
      | none => some { s with progress := if s.writer.buf = [] then none else some 0 }
      | some _ => none
  | .accept count =>
      match s.progress with
      | none => none
      | some done =>
          if 0 < count ∧ done + count ≤ s.writer.buf.length then
            some { s with
              progress := some (done + count)
              accepted := s.accepted ++ (s.writer.buf.drop done).take count }
          else none
  | .interrupt =>
      match s.progress with
      | none => none
      | some done => if done < s.writer.buf.length then some { s with progress := none } else none
  | .finish =>
      match s.progress with
      | none => none
      | some done =>
          if done = s.writer.buf.length then
            some { s with writer := s.writer.flush.2, progress := none }
          else none

/-- A flush that begins to write has before it a buffer of which nothing was accepted yet: the bytes
accepted are those the writer counts and those of this flush. -/
def Untorn (s : State) : Op → Prop
  | .accept _ => ∀ done, s.progress = some done →
      s.accepted.length = s.writer.bytesWritten + done
  | _ => True

/-- A step with which a flush returns `Ok`. -/
def Returns (s : State) : Op → Prop
  | .flush => s.writer.buf = []
  | .finish => True
  | _ => False

/-! ### The invariant -/

/-- The stream so far is what was flushed and the buffer, and some part of the buffer is accepted. -/
structure Intact (s : State) (flushed : Bytes) (part : Nat) : Prop where
  length_eq : flushed.length = s.writer.bytesWritten
  queued_eq : Frame.encodeAll s.queued = flushed ++ s.writer.buf
  part_le : part ≤ s.writer.buf.length
  accepted_eq : s.accepted = flushed ++ s.writer.buf.take part
  progress_le : ∀ done, s.progress = some done → done ≤ part

theorem intact_init : Intact init [] 0 :=
  ⟨rfl, rfl, le_rfl, rfl, fun _ h => by cases h⟩

section Steps

variable {s t : State} {flushed : Bytes} {part : Nat}

theorem Intact.length_accepted (h : Intact s flushed part) :
    s.accepted.length = s.writer.bytesWritten + part := by
  rw [h.accepted_eq, List.length_append, List.length_take, Nat.min_eq_left h.part_le, h.length_eq]

theorem Intact.begins (h : Intact s flushed part) : s.accepted <+: Frame.encodeAll s.queued := by
  rw [h.accepted_eq, h.queued_eq]
  exact (List.prefix_append_right_inj flushed).mpr (List.take_prefix part s.writer.buf)

/-- Once the buffer is accepted, the whole stream is. -/
theorem Intact.complete (h : Intact s flushed part) (hpart : s.writer.buf.length ≤ part) :
    s.accepted = Frame.encodeAll s.queued := by
  rw [h.accepted_eq, h.queued_eq, List.take_of_length_le hpart]

theorem step_queue {frame : Frame} (hstep : step s (.queue frame) = some t) :
    t = { s with writer := s.writer.queue frame, queued := s.queued ++ [frame] } := by
  rw [step] at hstep
  cases hprogress : s.progress with
  | none =>
      rw [hprogress] at hstep
      exact (Option.some.inj hstep).symm
  | some done =>
      rw [hprogress] at hstep
      cases hstep

theorem step_flush (hstep : step s .flush = some t) :
    t = { s with progress := if s.writer.buf = [] then none else some 0 } := by
  rw [step] at hstep
  cases hprogress : s.progress with
  | none =>
      rw [hprogress] at hstep
      exact (Option.some.inj hstep).symm
  | some done =>
      rw [hprogress] at hstep
      cases hstep

theorem step_accept {count : Nat} (hstep : step s (.accept count) = some t) :
    ∃ done, s.progress = some done ∧ done + count ≤ s.writer.buf.length ∧
      t = { s with
        progress := some (done + count)
        accepted := s.accepted ++ (s.writer.buf.drop done).take count } := by
  rw [step] at hstep
  cases hprogress : s.progress with
  | none =>
      rw [hprogress] at hstep
      cases hstep
  | some done =>
      rw [hprogress] at hstep
      dsimp only at hstep
      split_ifs at hstep with hfits
      exact ⟨done, rfl, hfits.2, (Option.some.inj hstep).symm⟩

theorem step_interrupt (hstep : step s .interrupt = some t) : t = { s with progress := none } := by
  rw [step] at hstep
  cases hprogress : s.progress with
  | none =>
      rw [hprogress] at hstep
      cases hstep
  | some done =>
      rw [hprogress] at hstep
      dsimp only at hstep
      split_ifs at hstep
      exact (Option.some.inj hstep).symm

theorem step_finish (hstep : step s .finish = some t) :
    s.progress = some s.writer.buf.length ∧
      t = { s with writer := s.writer.flush.2, progress := none } := by
  rw [step] at hstep
  cases hprogress : s.progress with
  | none =>
      rw [hprogress] at hstep
      cases hstep
  | some done =>
      rw [hprogress] at hstep
      dsimp only at hstep
      split_ifs at hstep with hdone
      exact ⟨congrArg some hdone, (Option.some.inj hstep).symm⟩

theorem Intact.queue (h : Intact s flushed part) (frame : Frame) :
    Intact { s with writer := s.writer.queue frame, queued := s.queued ++ [frame] } flushed part where
  length_eq := h.length_eq
  queued_eq := by
    rw [Frame.encodeAll_append, h.queued_eq, List.append_assoc]
    exact congrArg _ (congrArg _ (List.append_nil _))
  part_le := h.part_le.trans (by rw [FrameWriter.queue, List.length_append]; omega)
  accepted_eq := by
    rw [FrameWriter.queue, List.take_append_of_le_length h.part_le]
    exact h.accepted_eq
  progress_le := h.progress_le

/-- A flush that begins, or ends without having returned. -/
theorem Intact.restart (h : Intact s flushed part) {progress : Option Nat}
    (hprogress : ∀ done, progress = some done → done = 0) :
    Intact { s with progress := progress } flushed part :=
  ⟨h.length_eq, h.queued_eq, h.part_le, h.accepted_eq, fun done hdone => by
    rw [hprogress done hdone]
    exact Nat.zero_le part⟩

/-- Bytes are accepted where the last ones ended. -/
theorem Intact.accept (h : Intact s flushed part) {count : Nat}
    (hfits : part + count ≤ s.writer.buf.length) :
    Intact { s with
      progress := some (part + count)
      accepted := s.accepted ++ (s.writer.buf.drop part).take count } flushed (part + count) where
  length_eq := h.length_eq
  queued_eq := h.queued_eq
  part_le := hfits
  accepted_eq := by
    change s.accepted ++ _ = _
    rw [h.accepted_eq, List.append_assoc, ← List.take_add]
  progress_le _ hdone := (Option.some.inj hdone).ge

/-- The whole buffer is accepted, and cleared. -/
theorem Intact.finish (h : Intact s flushed part) (hpart : s.writer.buf.length ≤ part) :
    Intact { s with writer := s.writer.flush.2, progress := none } (flushed ++ s.writer.buf) 0 where
  length_eq := by
    rw [List.length_append, h.length_eq]
    rfl
  queued_eq := h.queued_eq.trans (List.append_nil _).symm
  part_le := Nat.zero_le _
  accepted_eq := by
    have hcomplete : s.accepted = flushed ++ s.writer.buf :=
      (h.complete hpart).trans h.queued_eq
    exact hcomplete.trans (List.append_nil _).symm
  progress_le _ hnone := by cases hnone

theorem Intact.step (h : Intact s flushed part) {op : Op} (huntorn : Untorn s op)
    (hstep : step s op = some t) :
    (∃ flushed' part', Intact t flushed' part') ∧
      (Returns s op → t.accepted = Frame.encodeAll t.queued) := by
  cases op with
  | queue frame =>
      obtain rfl := step_queue hstep
      exact ⟨⟨flushed, part, h.queue frame⟩, False.elim⟩
  | flush =>
      obtain rfl := step_flush hstep
      refine ⟨⟨flushed, part, h.restart fun done hdone => ?_⟩, fun hempty => h.complete ?_⟩
      · split_ifs at hdone
        exact (Option.some.inj hdone).symm
      · rw [show s.writer.buf = [] from hempty]
        exact Nat.zero_le part
  | accept count =>
      obtain ⟨done, hprogress, hfits, rfl⟩ := step_accept hstep
      obtain rfl : part = done := by
        have hcount := huntorn done hprogress
        rw [h.length_accepted] at hcount
        omega
      exact ⟨⟨flushed, part + count, h.accept hfits⟩, False.elim⟩
  | interrupt =>
      obtain rfl := step_interrupt hstep
      exact ⟨⟨flushed, part, h.restart nofun⟩, False.elim⟩
  | finish =>
      obtain ⟨hprogress, rfl⟩ := step_finish hstep
      have hpart := h.progress_le _ hprogress
      exact ⟨⟨flushed ++ s.writer.buf, 0, h.finish hpart⟩, fun _ => h.complete hpart⟩

end Steps

/-- **The stream.** As long as no flush writes after one that was interrupted with part of the buffer
accepted: in every state, what the inner writer has accepted is a prefix of the frames queued, and when
a flush returns `Ok` it is all of them. -/
theorem accepted_in_order {ops : List Op} {s : State} (hrun : Run step Untorn init ops s) :
    s.accepted <+: Frame.encodeAll s.queued ∧
      ∀ op t, Untorn s op → Returns s op → step s op = some t →
        t.accepted = Frame.encodeAll t.queued := by
  obtain ⟨flushed, part, h⟩ : ∃ flushed part, Intact s flushed part := by
    refine hrun.invariant (p := fun s => ∃ flushed part, Intact s flushed part) ?_
      ⟨[], 0, intact_init⟩
    rintro s op t ⟨flushed, part, h⟩ huntorn hstep
    exact (h.step huntorn hstep).1
  exact ⟨h.begins, fun op t huntorn hreturns hstep => (h.step huntorn hstep).2 hreturns⟩

def pingFrame : Frame := .new .ping 0 []

/-- A flush that is dropped before anything is accepted, and one that accepts its 17 bytes in two
steps. -/
theorem accepted_in_order_twice : ∃ s, Run step Untorn init
    [.queue pingFrame, .flush, .interrupt, .flush, .accept 5, .accept 12] s ∧
      s.accepted <+: pingFrame.encode ∧
        ∃ t, step s .finish = some t ∧ t.accepted = pingFrame.encode := by
  obtain ⟨s, hrun, hqueued, t, hfinish, htqueued⟩ : ∃ s, Run step Untorn init
      [.queue pingFrame, .flush, .interrupt, .flush, .accept 5, .accept 12] s ∧
        s.queued = [pingFrame] ∧ ∃ t, step s .finish = some t ∧ t.queued = [pingFrame] := by
    refine ⟨_, .cons rfl trivial (.cons rfl trivial (.cons rfl trivial (.cons rfl trivial
      (.cons rfl ?_ (.cons rfl ?_ (.nil _)))))), rfl, _, rfl, rfl⟩
    · intro done hdone
      obtain rfl := Option.some.inj hdone
      rfl
    · intro done hdone
      obtain rfl := Option.some.inj hdone
      rfl
  have hencode : Frame.encodeAll [pingFrame] = pingFrame.encode := List.append_nil _
  obtain ⟨hbegins, hreturns⟩ := accepted_in_order hrun
  refine ⟨s, hrun, ?_, t, hfinish, ?_⟩
  · rw [← hencode, ← hqueued]
    exact hbegins
  · rw [← hencode, ← htqueued]
    exact hreturns .finish t trivial trivial hfinish

/-- A flush that is dropped after one byte, and another one: the byte is sent twice. -/
theorem accepted_twice : ∃ s, Run step Free init
    [.queue pingFrame, .flush, .accept 1, .interrupt, .flush, .accept 17] s ∧
      ¬ s.accepted <+: Frame.encodeAll s.queued ∧
        ∃ t, step s .finish = some t ∧ t.accepted ≠ Frame.encodeAll t.queued := by
  refine ⟨_, .cons rfl trivial (.cons rfl trivial (.cons rfl trivial (.cons rfl trivial
    (.cons rfl trivial (.cons rfl trivial (.nil _)))))), by decide, _, rfl, by decide⟩

end Flushing

end Ohmcp
