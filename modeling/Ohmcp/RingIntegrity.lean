import Ohmcp.ShmRing

/-! The ring as a queue of records: one producer, one consumer that takes the records in write
order and may pass over some of them. -/

open Circular Transition

namespace Ohmcp

namespace ShmRing

/-- The ring represents a queue: the records lie one behind another between the cursors. -/
structure Queue (ring : ShmRing) (live : List Record) : Prop where
  tail_le_head : ring.tail ≤ ring.head
  head_le : ring.head ≤ ring.tail + ring.cap
  head_lt : ring.head < 2 ^ 64
  holds : ∀ record ∈ live, ring.Holds record
  tail_le : ∀ record ∈ live, ring.tail ≤ record.offset
  ordered : live.Pairwise fun earlier later => earlier.stop ≤ later.offset

theorem queue_create {cap : Nat} (hcap : 0 < cap) : (create cap hcap).Queue [] where
  tail_le_head := Nat.le_refl 0
  head_le := Nat.zero_le _
  head_lt := Nat.two_pow_pos 64
  holds := nofun
  tail_le := nofun
  ordered := .nil

namespace Queue

variable {ring : ShmRing} {live : List Record} {data : Bytes} {pos : Nat}

/-- A new record shares no cell with a record of the queue. -/
theorem apart (hqueue : ring.Queue live) (hfits : ring.CursorFits data.length)
    (hwrite : (ring.tryWrite data).1 = some pos) {record : Record} (hrecord : record ∈ live) :
    Apart ring.cap pos data.length record.offset record.data.length := by
  obtain ⟨rfl, hpos, hfit, hroom, _, _⟩ := tryWrite_some hfits hqueue.tail_le_head hwrite
  have hholds := hqueue.holds record hrecord
  have hhead := le_nextFit ring.cap ring.head data.length
  have hstop := hholds.stop_le
  refine (apart_of_window hholds.nonempty hpos (hqueue.tail_le record hrecord) ?_ hroom
    hholds.contiguous hfit).symm
  unfold Record.stop at hstop
  omega

/-- A successful write appends its record to the queue. -/
theorem write (hqueue : ring.Queue live) (hfits : ring.CursorFits data.length)
    (hwrite : (ring.tryWrite data).1 = some pos) :
    (ring.tryWrite data).2.Queue (live ++ [⟨pos, data⟩]) := by
  have hapart : ∀ record ∈ live, Apart ring.cap pos data.length record.offset record.data.length :=
    fun _ hrecord => hqueue.apart hfits hwrite hrecord
  obtain ⟨hpos, hnonempty, hfit, hroom, hlt, hring⟩ :=
    tryWrite_some hfits hqueue.tail_le_head hwrite
  have hhead : ring.head ≤ pos := hpos ▸ le_nextFit ring.cap ring.head data.length
  have htail := hqueue.tail_le_head
  rw [hring]
  refine ⟨?_, ?_, ?_, ?_, ?_, ?_⟩
  · rw [head_written hlt, tail_written]
    omega
  · rw [head_written hlt]
    exact hroom
  · rw [head_written hlt]
    exact hlt
  · intro record hrecord
    rcases List.mem_append.mp hrecord with hold | hnew
    · exact (hqueue.holds record hold).written hhead hlt (hapart record hold)
    · rw [List.mem_singleton.mp hnew]
      exact holds_written hnonempty hfit hlt
  · intro record hrecord
    rcases List.mem_append.mp hrecord with hold | hnew
    · exact hqueue.tail_le record hold
    · rw [List.mem_singleton.mp hnew]
      exact htail.trans hhead
  · refine List.pairwise_append.mpr ⟨hqueue.ordered, List.pairwise_singleton _ _, ?_⟩
    intro earlier hearlier later hlater
    rw [List.mem_singleton.mp hlater]
    exact (hqueue.holds earlier hearlier).stop_le.trans hhead

/-- A refused write changes nothing. -/
theorem write_none (hqueue : ring.Queue live) (hwrite : (ring.tryWrite data).1 = none) :
    (ring.tryWrite data).2.Queue live := by
  rw [tryWrite_none hwrite]
  exact hqueue

/-- The record the consumer asks for is returned intact. -/
theorem read_eq (hqueue : ring.Queue live) {record : Record} (hrecord : record ∈ live) :
    ring.readRelease record.offset record.data.length =
      (some record.data, { ring with tail := record.stop }) :=
  readRelease_of_holds (hqueue.holds record hrecord) hqueue.head_lt

/-- Reading a record drops it and everything that was written before it. -/
theorem read {skipped rest : List Record} {record : Record}
    (hqueue : ring.Queue (skipped ++ record :: rest)) :
    (ring.readRelease record.offset record.data.length).2.Queue rest := by
  have hmem : record ∈ skipped ++ record :: rest := by simp
  have hholds := hqueue.holds record hmem
  have htail := hqueue.tail_le record hmem
  have hhead := hqueue.head_le
  have hordered := (List.pairwise_cons.mp (List.pairwise_append.mp hqueue.ordered).2.1)
  rw [hqueue.read_eq hmem]
  refine ⟨hholds.stop_le, ?_, hqueue.head_lt, ?_, hordered.1, hordered.2⟩
  · show ring.head ≤ record.offset + record.data.length + ring.cap
    omega
  · intro later hlater
    exact (hqueue.holds later (by simp [hlater])).setTail _

end Queue

/-! ### Records that are read in any order -/

/-- The ring holds all of some records, wherever they lie between its cursors. -/
structure Keeps (ring : ShmRing) (records : List Record) : Prop where
  tail_le_head : ring.tail ≤ ring.head
  head_lt : ring.head < 2 ^ 64
  holds : ∀ record ∈ records, ring.Holds record

namespace Keeps

variable {ring : ShmRing} {records records' : List Record} {payload : Bytes} {pos : Nat}

theorem mono (hkeeps : Keeps ring records) (hsub : ∀ record ∈ records', record ∈ records) :
    Keeps ring records' :=
  ⟨hkeeps.tail_le_head, hkeeps.head_lt,
    fun record hrecord => hkeeps.holds record (hsub record hrecord)⟩

/-- A record in free cells joins the others. -/
theorem write (hkeeps : Keeps ring records) (hfits : ring.CursorFits payload.length)
    (hwrite : (ring.tryWrite payload).1 = some pos)
    (hclear : ∀ record ∈ records,
      Apart ring.cap pos payload.length record.offset record.data.length)
    (hsub : ∀ record ∈ records', record ∈ records ∨ record = ⟨pos, payload⟩) :
    Keeps (ring.tryWrite payload).2 records' := by
  obtain ⟨hpos, hnonempty, hfit, _, hlt, hring⟩ :=
    tryWrite_some hfits hkeeps.tail_le_head hwrite
  have hhead : ring.head ≤ pos := hpos ▸ le_nextFit ring.cap ring.head payload.length
  have htail := hkeeps.tail_le_head
  rw [hring]
  refine ⟨?_, ?_, ?_⟩
  · rw [head_written hlt, tail_written]
    omega
  · rw [head_written hlt]
    exact hlt
  · intro record hrecord
    rcases hsub record hrecord with hold | rfl
    · exact (hkeeps.holds record hold).written hhead hlt (hclear record hold)
    · exact holds_written hnonempty hfit hlt

/-- A record is read as it was written, in whatever order; only the tail moves. -/
theorem read {record : Record} (hkeeps : Keeps ring records) (hrecord : record ∈ records)
    (hsub : ∀ record ∈ records', record ∈ records) :
    ring.readRelease record.offset record.data.length =
        (some record.data, { ring with tail := record.stop }) ∧
      Keeps { ring with tail := record.stop } records' := by
  have hholds := hkeeps.holds record hrecord
  exact ⟨readRelease_of_holds hholds hkeeps.head_lt, hholds.stop_le,
    hkeeps.head_lt, fun later hlater => (hkeeps.holds later (hsub later hlater)).setTail _⟩

end Keeps

/-! ### One record at a time -/

/-- The consumer has taken all there was. -/
structure Level (ring : ShmRing) : Prop where
  tail_eq : ring.tail = ring.head
  head_lt : ring.head < 2 ^ 64
  cap_dvd : ring.cap ∣ 2 ^ 64
  cap_le : ring.cap ≤ maxShmCap

/-- A record is read back from where it was just written, also where the cursors wrap. -/
theorem readRelease_written {ring : ShmRing} {data : Bytes} {pos : Nat}
    (hpos : 0 < data.length) (hfit : Contiguous ring.cap pos data.length)
    (hcap : ring.cap < 2 ^ 64) :
    (ring.written pos data).readRelease pos data.length =
      (some data, { ring.written pos data with tail := wrap64 (pos + data.length) }) := by
  unfold Contiguous at hfit
  have hin : ¬ (data.length = 0 ∨ (ring.written pos data).cap < data.length ∨
      (ring.written pos data).cap <
        wrap64 (pos % (ring.written pos data).cap + data.length)) := by
    rw [cap_written, wrap64_of_lt (by omega)]
    omega
  have hstop : ¬ (ring.written pos data).head < wrap64 (pos + data.length) := lt_irrefl _
  rw [readRelease, if_neg hin, if_neg hstop]
  exact congrArg (fun bytes => (some bytes, _)) (load_store_self _ _ _)

/-- In a level ring a record starts at the head or at the start of a lap, and stays in one lap. -/
theorem Level.writePos_spec {ring : ShmRing} (hlevel : ring.Level) {len : Nat}
    (hlen : len ≤ ring.cap) :
    ring.writePos len < 2 ^ 64 ∧ Contiguous ring.cap (ring.writePos len) len := by
  obtain ⟨_, hhead, hdvd, hcap⟩ := hlevel
  have hsmall : maxShmCap < 2 ^ 32 := by decide
  have hmod := Nat.mod_lt ring.head ring.cap_pos
  unfold writePos Contiguous
  rw [wrap64_of_lt (n := ring.head % ring.cap + len) (by omega)]
  by_cases hskip : ring.cap < ring.head % ring.cap + len
  · rw [if_pos hskip]
    have hlap : (ring.head + (ring.cap - ring.head % ring.cap)) % ring.cap = 0 := by
      have hdiv := Nat.div_add_mod ring.head ring.cap
      have hnext : ring.head + (ring.cap - ring.head % ring.cap) =
          ring.cap * (ring.head / ring.cap + 1) := by
        rw [Nat.mul_add, Nat.mul_one]
        omega
      rw [hnext, Nat.mul_mod_right]
    refine ⟨Nat.mod_lt _ (by decide), ?_⟩
    rw [wrap64, Nat.mod_mod_of_dvd _ hdvd, hlap]
    omega
  · rw [if_neg hskip]
    exact ⟨hhead, by omega⟩

/-- A record that a level ring takes is read back, and the ring is level again. -/
theorem Level.write_read {ring : ShmRing} (hlevel : ring.Level) {data : Bytes} {pos : Nat}
    (hwrite : (ring.tryWrite data).1 = some pos) :
    pos < 2 ^ 64 ∧ data.length < 2 ^ 32 ∧
      ((ring.tryWrite data).2.readRelease pos data.length).1 = some data ∧
      ((ring.tryWrite data).2.readRelease pos data.length).2.Level := by
  have hcap : ring.cap < 2 ^ 32 := lt_of_le_of_lt hlevel.cap_le (by decide)
  unfold tryWrite at hwrite ⊢
  by_cases hfull : data.length = 0 ∨ ring.cap < data.length
  · rw [if_pos hfull] at hwrite
    cases hwrite
  rw [if_neg hfull] at hwrite ⊢
  dsimp only at hwrite ⊢
  by_cases hroom : ring.cap < wrapSub64 (wrap64 (ring.writePos data.length + data.length)) ring.tail
  · rw [if_pos hroom] at hwrite
    cases hwrite
  rw [if_neg hroom] at hwrite ⊢
  obtain rfl := Option.some.inj hwrite
  obtain ⟨hlt, hfit⟩ := hlevel.writePos_spec (Nat.not_lt.mp (not_or.mp hfull).2)
  rw [readRelease_written (by omega) hfit (by omega)]
  exact ⟨hlt, by omega, rfl, rfl, Nat.mod_lt _ (by decide), hlevel.cap_dvd, hlevel.cap_le⟩

end ShmRing

/-! ### Runs of a producer and a consumer -/

namespace RingRun

inductive Op where
  | write (data : Bytes)
  /-- The consumer passes over `skip` records and reads the next one. -/
  | read (skip : Nat)

structure State where
  ring : ShmRing
  /-- The records the consumer has not passed, in write order. -/
  live : List ShmRing.Record

def init (cap : Nat) (hcap : 0 < cap) : State := ⟨.create cap hcap, []⟩

def step (s : State) : Op → Option State
  | .write data =>
      some ⟨(s.ring.tryWrite data).2,
        s.live ++ ((s.ring.tryWrite data).1.map fun pos => ⟨pos, data⟩).toList⟩
  | .read skip =>
      match s.live.drop skip with
      | [] => none
      | record :: rest =>
          some ⟨(s.ring.readRelease record.offset record.data.length).2, rest⟩

/-- The cursors stay below `2^64` at every write that succeeds. -/
def CursorsFit (s : State) : Op → Prop
  | .write data => s.ring.WriteFits data
  | .read _ => True

instance (s : State) (op : Op) : Decidable (CursorsFit s op) :=
  match op with
  | .write data => inferInstanceAs (Decidable (s.ring.WriteFits data))
  | .read _ => inferInstanceAs (Decidable True)

theorem step_write (s : State) (data : Bytes) :
    step s (.write data) = some ⟨(s.ring.tryWrite data).2,
      s.live ++ ((s.ring.tryWrite data).1.map fun pos => ⟨pos, data⟩).toList⟩ := rfl

theorem queue_step (s : State) (op : Op) (t : State) (hqueue : s.ring.Queue s.live)
    (hfits : CursorsFit s op) (hstep : step s op = some t) : t.ring.Queue t.live := by
  cases op with
  | write data =>
      rw [step_write] at hstep
      obtain rfl := Option.some.inj hstep
      cases hwrite : (s.ring.tryWrite data).1 with
      | none =>
          simp only [Option.map_none, Option.toList_none, List.append_nil]
          exact hqueue.write_none hwrite
      | some pos => exact hqueue.write (hfits.cursorFits hwrite) hwrite
  | read skip =>
      simp only [step] at hstep
      cases hdrop : s.live.drop skip with
      | nil =>
          rw [hdrop] at hstep
          cases hstep
      | cons record rest =>
          rw [hdrop] at hstep
          cases hstep
          rw [← List.take_append_drop skip s.live, hdrop] at hqueue
          exact hqueue.read

theorem queue_run {cap : Nat} {hcap : 0 < cap} {ops : List Op} {s : State}
    (hrun : Run step CursorsFit (init cap hcap) ops s) : s.ring.Queue s.live :=
  hrun.invariant queue_step (ShmRing.queue_create hcap)

theorem cap_step (s : State) (op : Op) (t : State) (hstep : step s op = some t) :
    t.ring.cap = s.ring.cap := by
  cases op with
  | write data =>
      rw [step_write] at hstep
      obtain rfl := Option.some.inj hstep
      exact ShmRing.cap_tryWrite s.ring data
  | read skip =>
      simp only [step] at hstep
      split at hstep
      · cases hstep
      · cases hstep
        exact ShmRing.cap_readRelease _ _ _

theorem cap_run {cap : Nat} {hcap : 0 < cap} {ops : List Op} {s : State}
    (hrun : Run step CursorsFit (init cap hcap) ops s) : s.ring.cap = cap :=
  hrun.invariant (p := fun s => s.ring.cap = cap)
    (fun s op t hs _ hstep => (cap_step s op t hstep).trans hs) rfl

/-- **Ring integrity.** In every state of every run: the cursors are in order and at most one
capacity apart; every record the consumer may still ask for is contiguous and comes back exactly
as it was written, whichever records are passed over; and no write that succeeds touches a cell of
such a record. -/
theorem ring_integrity {cap : Nat} {hcap : 0 < cap} {ops : List Op} {s : State}
    (hrun : Run step CursorsFit (init cap hcap) ops s) :
    (s.ring.tail ≤ s.ring.head ∧ s.ring.head ≤ s.ring.tail + cap) ∧
    (∀ record ∈ s.live, record.offset % cap + record.data.length ≤ cap) ∧
    (∀ skip record rest, s.live.drop skip = record :: rest →
      (s.ring.readRelease record.offset record.data.length).1 = some record.data) ∧
    (∀ data pos, CursorsFit s (.write data) → (s.ring.tryWrite data).1 = some pos →
      pos % cap + data.length ≤ cap ∧
      ∀ record ∈ s.live, ∀ i < data.length, ∀ j < record.data.length,
        (pos + i) % cap ≠ (record.offset + j) % cap) := by
  have hqueue := queue_run hrun
  rw [← cap_run hrun]
  refine ⟨⟨hqueue.tail_le_head, hqueue.head_le⟩, ?_, ?_, ?_⟩
  · exact fun record hrecord => (hqueue.holds record hrecord).contiguous
  · intro skip record rest hdrop
    have hmem : record ∈ s.live := List.mem_of_mem_drop (i := skip) (by rw [hdrop]; simp)
    rw [hqueue.read_eq hmem]
  · intro data pos hfits hwrite
    have hcursor := ShmRing.WriteFits.cursorFits hfits hwrite
    have hcontig := (ShmRing.tryWrite_some hcursor hqueue.tail_le_head hwrite).2.2.1
    refine ⟨hcontig, ?_⟩
    intro record hrecord i hi j hj
    exact (hqueue.apart hcursor hwrite hrecord).mod_ne hcontig
      (hqueue.holds record hrecord).contiguous hi hj

/-- Two records in an eight-byte ring, the first one passed over. -/
theorem ring_integrity_two_records :
    ((((ShmRing.create 8 (by decide)).tryWrite [1, 2, 3]).2.tryWrite [4, 5]).2.readRelease 3 2).1 =
      some [4, 5] := by
  have hrun : Run step CursorsFit (init 8 (by decide)) [.write [1, 2, 3], .write [4, 5]]
      ⟨(((ShmRing.create 8 (by decide)).tryWrite [1, 2, 3]).2.tryWrite [4, 5]).2,
        [⟨0, [1, 2, 3]⟩, ⟨3, [4, 5]⟩]⟩ := by
    refine .cons (t := ⟨((ShmRing.create 8 (by decide)).tryWrite [1, 2, 3]).2,
      [⟨0, [1, 2, 3]⟩]⟩) rfl (by decide) ?_
    exact .cons rfl (by decide) (.nil _)
  exact (ring_integrity hrun).2.2.1 1 ⟨3, [4, 5]⟩ [] rfl

end RingRun

end Ohmcp
