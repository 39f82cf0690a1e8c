import Ohmcp.Requests

/-! What becomes of the frames that are read: every response reaches the request with its id, and
every progress the callback registered for it, whoever reads. -/

open Transition

namespace Ohmcp

variable [Externals]

namespace Requests

/-! ### What the server promises -/

/-- A frame that ends the request with this id. -/
def terminal (id : UInt64) (frame : Frame) : Bool :=
  !notifies frame.header.msgType && decide (frame.header.requestId = id)

/-- At most one frame ends a request. -/
def Once (s : State) : Prop :=
  ∀ id, s.phase id ≠ .idle → (s.stream.queued.filter (terminal id)).length ≤ 1

/-- The references into the ring resolve. -/
def Resolves (s : State) : Op → Prop
  | .read _ _ => ∀ raw, (next s.stream).1 = some (.ok (some raw)) →
      ∃ frame, (resolveShm s.shm raw).1 = .ok frame
  | _ => True

def Proper (s : State) : Op → Prop
  | .stream op => Framed.Proper s.stream op
  | _ => True

def Allowed (s : State) (op : Op) : Prop :=
  Proper s op ∧ Resolves s op ∧ ∀ t, step s op = some t → Once t

/-! ### What holds of the frames that were read -/

/-- No frame is given to a request it is not for, and none is thrown away that a request waits
for. -/
def Entry.Sound : Entry → Prop
  | .handed raw frame => notifies raw.header.msgType = false ∧
      frame.header.msgType = raw.header.msgType ∧ frame.header.requestId = raw.header.requestId ∧
      (raw.header.flags.shmRef = false → frame = raw)
  | .discarded raw live => notifies raw.header.msgType = false ∧ live = false
  | .notice raw _ => notifies raw.header.msgType = true
  | .unresolved _ => False

/-- The request has returned the frame from `recv_response` or finds it in its channel, if it has
not ended without. -/
def Received (s : State) (id : UInt64) (frame : Frame) : Prop :=
  (id, frame) ∈ s.results ∨
    s.slot id = some frame ∧ (s.phase id).listens = true ∨
    (s.phase id = .returned ∨ s.phase id = .dropped) ∧ ∀ frame', (id, frame') ∉ s.results

/-- A request has only what was handed to it. -/
structure Served (s : State) (id : UInt64) : Prop where
  slot : ∀ frame, s.slot id = some frame →
    frame.header.requestId = id ∧ ∃ raw, .handed raw frame ∈ s.log
  result : ∀ frame, (id, frame) ∈ s.results →
    frame.header.requestId = id ∧ ∃ raw, .handed raw frame ∈ s.log
  finished : ∀ frame, (id, frame) ∈ s.results → s.phase id = .responded frame ∨ s.phase id = .returned
  handed : ∀ raw frame, .handed raw frame ∈ s.log → frame.header.requestId = id →
    Received s id frame

structure Delivered (s : State) : Prop where
  read : s.log.map Entry.raw = s.stream.returned
  sound : ∀ entry ∈ s.log, entry.Sound
  served : ∀ id, Served s id
  once : (s.results.map Prod.fst).Nodup

/-- The callbacks for progress are those of the requests that asked for one. -/
structure Registered (s : State) : Prop where
  callback : ∀ id ∈ s.watched, (s.phase id).inProgress = true → id ∈ s.callbacks.progress
  watched : s.callbacks.progress ⊆ s.watched
  begun : ∀ id ∈ s.watched, s.phase id ≠ .idle

/-- A response was read for the requests that count as answered. -/
def Answered (s : State) : Prop :=
  ∀ id ∈ s.answered, ∃ frame ∈ s.stream.returned, terminal id frame = true

/-! ### Steps that take no frame -/

section Quiet

variable {s t : State} {id : UInt64}

/-- Where a request may go without a frame. -/
structure Goes (old new : Phase) : Prop where
  listens : old.listens = true → new.listens = true ∨ new = .returned ∨ new = .dropped
  responded : ∀ frame, old = .responded frame → new = .responded frame ∨ new = .returned
  returned : old = .returned → new = .returned
  dropped : old = .dropped → new = .dropped

omit [Externals] in
theorem Goes.refl (phase : Phase) : Goes phase phase where
  listens := Or.inl
  responded _ := Or.inl
  returned h := h
  dropped h := h

omit [Externals] in
theorem Goes.of_listens {old new : Phase} (hold : old.listens = true)
    (hnew : new.listens = true ∨ new = .returned ∨ new = .dropped) : Goes old new where
  listens _ := hnew
  responded frame h := by
    rw [h] at hold
    cases hold
  returned h := by
    rw [h] at hold
    cases hold
  dropped h := by
    rw [h] at hold
    cases hold

omit [Externals] in
theorem Served.not_listens (h : Served s id) {frame : Frame} (hresult : (id, frame) ∈ s.results) :
    (s.phase id).listens = false := by
  rcases h.finished frame hresult with hphase | hphase
  · rw [hphase]
    rfl
  · rw [hphase]
    rfl

omit [Externals] in
/-- A request that goes on without a frame keeps what it has. -/
theorem Served.goes (h : Served s id) (hgoes : Goes (s.phase id) (t.phase id))
    (hslot : t.slot id = s.slot id) (hresults : t.results = s.results) (hlog : t.log = s.log) :
    Served t id where
  slot := by
    rw [hslot, hlog]
    exact h.slot
  result := by
    rw [hresults, hlog]
    exact h.result
  finished frame hresult := by
    rw [hresults] at hresult
    rcases h.finished frame hresult with hphase | hphase
    · exact hgoes.responded frame hphase
    · exact Or.inr (hgoes.returned hphase)
  handed raw frame hmem hid := by
    rw [hlog] at hmem
    rw [Received, hresults, hslot]
    rcases h.handed raw frame hmem hid with hresult | ⟨hfilled, hlistens⟩ | ⟨hended, hnone⟩
    · exact Or.inl hresult
    · rcases hgoes.listens hlistens with hlistens' | hended
      · exact Or.inr (Or.inl ⟨hfilled, hlistens'⟩)
      · refine Or.inr (Or.inr ⟨hended, fun frame' hresult => ?_⟩)
        rw [h.not_listens hresult] at hlistens
        cases hlistens
    · refine Or.inr (Or.inr ⟨?_, hnone⟩)
      rcases hended with hphase | hphase
      · exact Or.inl (hgoes.returned hphase)
      · exact Or.inr (hgoes.dropped hphase)

omit [Externals] in
theorem Delivered.goes (h : Delivered s) (hgoes : ∀ id, Goes (s.phase id) (t.phase id))
    (hslot : t.slot = s.slot) (hresults : t.results = s.results) (hlog : t.log = s.log)
    (hreturned : t.stream.returned = s.stream.returned) : Delivered t where
  read := by
    rw [hlog, hreturned]
    exact h.read
  sound := by
    rw [hlog]
    exact h.sound
  served id := (h.served id).goes (hgoes id) (congrFun hslot id) hresults hlog
  once := by
    rw [hresults]
    exact h.once

omit [Externals] in
theorem Delivered.move (h : Delivered s) {phase : Phase} (hgoes : Goes (s.phase id) phase) :
    Delivered (s.move id phase) := by
  refine h.goes (fun other => ?_) rfl rfl rfl rfl
  by_cases hne : other = id
  · rw [hne, phase_move_self]
    exact hgoes
  · rw [phase_move_other s phase hne]
    exact .refl _

omit [Externals] in
/-- What the requests do not look at may change. -/
theorem Delivered.aside (h : Delivered s) (hphase : t.phase = s.phase) (hslot : t.slot = s.slot)
    (hresults : t.results = s.results) (hlog : t.log = s.log)
    (hreturned : t.stream.returned = s.stream.returned) : Delivered t := by
  refine h.goes (fun other => ?_) hslot hresults hlog hreturned
  rw [hphase]
  exact .refl _

omit [Externals] in
theorem Delivered.leave (h : Delivered s) (hgoes : Goes (s.phase id) .returned) :
    Delivered (s.leave id) :=
  (h.move hgoes).aside rfl rfl rfl rfl rfl

omit [Externals] in
/-- A request returns what its channel holds. -/
theorem Delivered.respond (h : Delivered s) {frame : Frame} (hslot : s.slot id = some frame)
    (hlistens : (s.phase id).listens = true) : Delivered (s.respond id frame) := by
  have hid := h.served id
  have hnone : ∀ frame', (id, frame') ∉ s.results := by
    intro frame' hresult
    rw [hid.not_listens hresult] at hlistens
    cases hlistens
  have hself : (s.respond id frame).phase id = .responded frame := phase_move_self s id _
  refine ⟨h.read, h.sound, fun other => ?_, ?_⟩
  · by_cases hne : other = id
    · subst hne
      constructor
      · exact hid.slot
      · intro frame' hresult
        rcases List.mem_append.mp hresult with hold | hnew
        · exact hid.result frame' hold
        · obtain ⟨_, rfl⟩ := Prod.mk.inj (List.mem_singleton.mp hnew)
          exact hid.slot _ hslot
      · intro frame' hresult
        rcases List.mem_append.mp hresult with hold | hnew
        · exact absurd hold (hnone frame')
        · obtain ⟨_, rfl⟩ := Prod.mk.inj (List.mem_singleton.mp hnew)
          exact Or.inl hself
      · intro raw frame' hmem hrequest
        apply Or.inl
        rcases hid.handed raw frame' hmem hrequest with hresult | ⟨hfilled, _⟩ | ⟨hended, _⟩
        · exact absurd hresult (hnone frame')
        · rw [hslot] at hfilled
          obtain rfl := Option.some.inj hfilled
          exact List.mem_append_right _ (List.mem_singleton.mpr rfl)
        · rcases hended with hphase | hphase
          · rw [hphase] at hlistens
            cases hlistens
          · rw [hphase] at hlistens
            cases hlistens
    · have hother := h.served other
      have hsame : (s.respond id frame).phase other = s.phase other := phase_move_other s _ hne
      have hresults : ∀ frame', (other, frame') ∈ (s.respond id frame).results ↔
          (other, frame') ∈ s.results := by
        intro frame'
        refine List.mem_append.trans (or_iff_left fun hnew => ?_)
        exact hne (Prod.mk.inj (List.mem_singleton.mp hnew)).1
      constructor
      · exact hother.slot
      · exact fun frame' hresult => hother.result frame' ((hresults frame').mp hresult)
      · rw [hsame]
        exact fun frame' hresult => hother.finished frame' ((hresults frame').mp hresult)
      · intro raw frame' hmem hrequest
        rw [Received, hsame, hresults]
        simp only [hresults]
        exact hother.handed raw frame' hmem hrequest
  · change ((s.results ++ [(id, frame)]).map Prod.fst).Nodup
    rw [List.map_append, List.map_singleton, List.nodup_append]
    refine ⟨h.once, List.nodup_singleton id, ?_⟩
    intro other hother id' hid' heq
    obtain ⟨⟨other', frame'⟩, hresult, rfl⟩ := List.mem_map.mp hother
    rw [List.mem_singleton.mp hid'] at heq
    obtain rfl : other' = id := heq
    exact hnone frame' hresult

end Quiet

/-! ### Steps that take one -/

section Frames

variable {s t : State} {id : UInt64} {raw frame : Frame}

omit [Externals] in
theorem discarded_ne_handed {live : Bool} (raw' frame' : Frame) :
    Entry.discarded raw live ≠ .handed raw' frame' := nofun

omit [Externals] in
theorem notice_ne_handed {called : Option Callback} (raw' frame' : Frame) :
    Entry.notice raw called ≠ .handed raw' frame' := nofun

omit [Externals] in
/-- A frame that is given to nobody. -/
theorem Delivered.note (h : Delivered s) {entry : Entry} (hsound : entry.Sound)
    (hnot : ∀ raw frame, entry ≠ .handed raw frame) (hphase : t.phase = s.phase)
    (hslot : t.slot = s.slot) (hresults : t.results = s.results)
    (hlog : t.log = s.log ++ [entry])
    (hreturned : t.stream.returned = s.stream.returned ++ [entry.raw]) : Delivered t where
  read := by
    rw [hlog, hreturned, List.map_append, h.read, List.map_singleton]
  sound other hother := by
    rw [hlog] at hother
    rcases List.mem_append.mp hother with hold | hnew
    · exact h.sound other hold
    · rw [List.mem_singleton.mp hnew]
      exact hsound
  served id := by
    obtain ⟨hfilled, hresult, hover, hhanded⟩ := h.served id
    have hmem : ∀ raw frame, Entry.handed raw frame ∈ t.log ↔ .handed raw frame ∈ s.log := by
      intro raw frame
      rw [hlog, List.mem_append, List.mem_singleton]
      exact or_iff_left fun heq => hnot raw frame heq.symm
    constructor
    · rw [hslot]
      simp only [hmem]
      exact hfilled
    · rw [hresults]
      simp only [hmem]
      exact hresult
    · rw [hresults, hphase]
      exact hover
    · intro raw frame hin
      rw [Received, hresults, hslot, hphase]
      exact hhanded raw frame ((hmem raw frame).mp hin)
  once := by
    rw [hresults]
    exact h.once

omit [Externals] in
/-- A frame is sent through the channel of a request that listens. -/
theorem Delivered.hand (h : Delivered s) (hsound : (Entry.handed raw frame).Sound)
    (hid : frame.header.requestId = id) (hlistens : (s.phase id).listens = true)
    (hnone : s.slot id = none) (hphase : t.phase = s.phase)
    (hslot : t.slot = Function.update s.slot id (some frame)) (hresults : t.results = s.results)
    (hlog : t.log = s.log ++ [.handed raw frame])
    (hreturned : t.stream.returned = s.stream.returned ++ [raw]) : Delivered t where
  read := by
    rw [hlog, hreturned, List.map_append, h.read, List.map_singleton]
    rfl
  sound other hother := by
    rw [hlog] at hother
    rcases List.mem_append.mp hother with hold | hnew
    · exact h.sound other hold
    · rw [List.mem_singleton.mp hnew]
      exact hsound
  served other := by
    obtain ⟨hfilled, hresult, hover, hhanded⟩ := h.served other
    have hmono : ∀ {frame'}, (∃ raw', Entry.handed raw' frame' ∈ s.log) →
        ∃ raw', Entry.handed raw' frame' ∈ t.log := by
      rintro frame' ⟨raw', hold⟩
      rw [hlog]
      exact ⟨raw', List.mem_append_left _ hold⟩
    have hnew : Entry.handed raw frame ∈ t.log := by
      rw [hlog]
      exact List.mem_append_right _ (List.mem_singleton.mpr rfl)
    constructor
    · intro frame' hsome
      rw [hslot] at hsome
      by_cases hne : other = id
      · rw [hne, Function.update_self] at hsome
        obtain rfl := Option.some.inj hsome
        exact ⟨hid.trans hne.symm, raw, hnew⟩
      · rw [Function.update_of_ne hne] at hsome
        exact ⟨(hfilled frame' hsome).1, hmono (hfilled frame' hsome).2⟩
    · intro frame' hin
      rw [hresults] at hin
      exact ⟨(hresult frame' hin).1, hmono (hresult frame' hin).2⟩
    · rw [hresults, hphase]
      exact hover
    · intro raw' frame' hin hrequest
      rw [Received, hresults, hslot, hphase]
      rw [hlog] at hin
      rcases List.mem_append.mp hin with hold | hlast
      · by_cases hne : other = id
        · -- nothing was handed to it before: its channel is empty, and it listens
          rw [← hne] at hlistens hnone
          rcases hhanded raw' frame' hold hrequest with hgot | ⟨hsome, _⟩ | ⟨hended, _⟩
          · rw [(h.served other).not_listens hgot] at hlistens
            cases hlistens
          · rw [hnone] at hsome
            cases hsome
          · rcases hended with hended | hended
            · rw [hended] at hlistens
              cases hlistens
            · rw [hended] at hlistens
              cases hlistens
        · rw [Function.update_of_ne hne]
          exact hhanded raw' frame' hold hrequest
      · obtain ⟨rfl, rfl⟩ := Entry.handed.inj (List.mem_singleton.mp hlast)
        obtain rfl : id = other := hid.symm.trans hrequest
        exact Or.inr (Or.inl ⟨Function.update_self .., hlistens⟩)
  once := by
    rw [hresults]
    exact h.once

omit [Externals] in
/-- What is in the channel of a request that does not listen does not count. -/
theorem Delivered.forget (h : Delivered s) (hlistens : (s.phase id).listens = false)
    (hphase : t.phase = s.phase) (hslot : t.slot = Function.update s.slot id none)
    (hresults : t.results = s.results) (hlog : t.log = s.log)
    (hreturned : t.stream.returned = s.stream.returned) : Delivered t where
  read := by
    rw [hlog, hreturned]
    exact h.read
  sound := by
    rw [hlog]
    exact h.sound
  served other := by
    obtain ⟨hfilled, hresult, hover, hhanded⟩ := h.served other
    by_cases hne : other = id
    · subst hne
      constructor
      · rw [hslot, Function.update_self]
        exact nofun
      · rw [hresults, hlog]
        exact hresult
      · rw [hresults, hphase]
        exact hover
      · intro raw frame hin hrequest
        rw [hlog] at hin
        rw [Received, hresults, hphase]
        rcases hhanded raw frame hin hrequest with hgot | ⟨_, hheard⟩ | hended
        · exact Or.inl hgot
        · rw [hlistens] at hheard
          cases hheard
        · exact Or.inr (Or.inr hended)
    · have hsame : t.slot other = s.slot other := by rw [hslot, Function.update_of_ne hne]
      constructor
      · rw [hsame, hlog]
        exact hfilled
      · rw [hresults, hlog]
        exact hresult
      · rw [hresults, hphase]
        exact hover
      · rw [hlog]
        simp only [Received, hresults, hphase, hsame]
        exact hhanded
  once := by
    rw [hresults]
    exact h.once

omit [Externals] in
/-- The one who reads returns its own response. -/
theorem Delivered.own (h : Delivered s) (hsound : (Entry.handed raw frame).Sound)
    (hid : frame.header.requestId = id) (hlistens : (s.phase id).listens = true)
    (hnone : s.slot id = none) (hphase : t.phase = Function.update s.phase id (.responded frame))
    (hslot : t.slot = s.slot) (hresults : t.results = s.results ++ [(id, frame)])
    (hlog : t.log = s.log ++ [.handed raw frame])
    (hreturned : t.stream.returned = s.stream.returned ++ [raw]) : Delivered t := by
  -- as if it had gone through the channel
  have hhand : Delivered { s with
      slot := Function.update s.slot id (some frame)
      log := s.log ++ [.handed raw frame]
      stream := { s.stream with returned := s.stream.returned ++ [raw] } } :=
    h.hand hsound hid hlistens hnone rfl rfl rfl rfl rfl
  have hrespond := hhand.respond (Function.update_self ..) hlistens
  have hover : ((State.respond { s with
      slot := Function.update s.slot id (some frame)
      log := s.log ++ [.handed raw frame]
      stream := { s.stream with returned := s.stream.returned ++ [raw] } } id frame).phase
      id).listens = false := by
    rw [State.respond, phase_move_self]
    rfl
  refine hrespond.forget hover hphase ?_ hresults hlog hreturned
  rw [hslot]
  funext other
  by_cases hne : other = id
  · rw [hne, Function.update_self, hnone]
  · rw [Function.update_of_ne hne]
    exact (Function.update_of_ne hne _ _).symm

/-! ### The stream below -/

omit [Externals] in
/-- A frame that the reader returns is the next of those queued. -/
theorem next_frame {stream : Framed.State} (hnext : (next stream).1 = some (.ok (some raw))) :
    (next stream).2.returned = stream.returned ++ [raw] ∧
      (next stream).2.queued = stream.queued ∧ (next stream).2.arrived = stream.arrived := by
  rcases hread : stream.reader.nextFrame stream.reads with ⟨result, reader, reads⟩
  have hresult : result = some (.ok (some raw)) := by
    rw [← hnext, next, hread]
  rw [hresult] at hread
  simp [next, Framed.step, hread]

omit [Externals] in
/-- Without a frame, asking returns none. -/
theorem next_none {stream : Framed.State}
    (hnext : ∀ raw, (next stream).1 ≠ some (.ok (some raw))) :
    (next stream).2.returned = stream.returned ∧
      (next stream).2.queued = stream.queued ∧ (next stream).2.arrived = stream.arrived := by
  rcases hread : stream.reader.nextFrame stream.reads with ⟨_ | (e | (_ | raw)), reader, reads⟩
  · simp [next, Framed.step, hread]
  · simp [next, Framed.step, hread]
  · simp [next, Framed.step, hread]
  · exact absurd (by rw [next, hread]) (hnext raw)

omit [Externals] in
theorem step_next (stream : Framed.State) :
    Framed.step stream .nextFrame = some (next stream).2 := by
  rcases hread : stream.reader.nextFrame stream.reads with ⟨_ | (e | (_ | raw)), reader, reads⟩
  · simp only [next, Framed.step, hread, Option.getD_some]
  · simp only [next, Framed.step, hread, Option.getD_some]
  · simp only [next, Framed.step, hread, Option.getD_some]
  · simp only [next, Framed.step, hread, Option.getD_some]

/-- The stream comes about by what its ends may do. -/
def Whole (stream : Framed.State) : Prop :=
  ∃ chunks hung lost later, Framed.Intact stream chunks hung lost later

omit [Externals] in
theorem Whole.next {stream : Framed.State} (h : Whole stream) : Whole (next stream).2 :=
  Framed.intact_step .nextFrame h trivial (step_next stream)

/-- Nothing that arrived is lost: what is not returned yet is in the buffer and in the reads to
come, and a frame of it that is complete is what the next one who reads gets. -/
structure Kept (stream : Framed.State) : Prop where
  order : ∃ later, stream.queued = stream.returned ++ later
  bytes : stream.arrived =
    Frame.encodeAll stream.returned ++ (stream.reader.buf ++ stream.reads.flatten)
  next : ∀ frame more, frame.WellFormed →
    stream.arrived = Frame.encodeAll (stream.returned ++ [frame]) ++ more →
    (next stream).1 = some (.ok (some frame))

omit [Externals] in
theorem Whole.kept {stream : Framed.State} (h : Whole stream) : Kept stream := by
  obtain ⟨chunks, hung, lost, later, hintact⟩ := h
  have hflatten : stream.reads.flatten = chunks.flatten := by
    rw [hintact.reads_eq, List.flatten_append]
    simp
  refine ⟨⟨later, hintact.queued_eq⟩, ?_, fun frame more hwf harrived => ?_⟩
  · rw [hflatten]
    exact hintact.arrived_eq
  · obtain ⟨first, rest, begun, rfl, hbuf, hbegun⟩ := hintact.head hwf harrived
    obtain ⟨after, _, hstep, hreturned, _⟩ := hintact.next hbuf hbegun
    obtain rfl := Option.some.inj ((step_next stream).symm.trans hstep)
    by_cases hframe : ∃ raw, (Requests.next stream).1 = some (.ok (some raw))
    · obtain ⟨raw, hnext⟩ := hframe
      rw [(next_frame hnext).1] at hreturned
      obtain rfl := List.singleton_injective (List.append_cancel_left hreturned)
      exact hnext
    · have hsame := (next_none fun raw hnext => hframe ⟨raw, hnext⟩).1
      rw [hsame] at hreturned
      exact absurd hreturned.symm (by simp)

/-- What becomes of a response to somebody else. -/
inductive Dispatched (s : State) (raw frame : Frame) : State → Prop where
  | handed (hlistens : (s.phase frame.header.requestId).listens = true)
      (hfresh : frame.header.requestId ∉ s.answered) :
      Dispatched s raw frame { s with
        pending := s.pending.erase frame.header.requestId
        answered := insert frame.header.requestId s.answered
        slot := Function.update s.slot frame.header.requestId (some frame)
        log := s.log ++ [.handed raw frame] }
  | late (hover : (s.phase frame.header.requestId).inProgress = false) :
      Dispatched s raw frame { s with
        pending := s.pending.erase frame.header.requestId
        answered := insert frame.header.requestId s.answered
        log := s.log ++ [.discarded raw false] }
  | unknown (hover : (s.phase frame.header.requestId).inProgress = false) :
      Dispatched s raw frame { s with log := s.log ++ [.discarded raw false] }

omit [Externals] in
theorem inProgress_of_listens {phase : Phase} (h : phase.listens = true) :
    phase.inProgress = true := by
  cases phase with
  | registered => rfl
  | writing => rfl
  | waiting => rfl
  | checking => rfl
  | reading => rfl
  | _ => cases h

omit [Externals] in
/-- A request in progress listens, or has its response. -/
theorem listens_of_inProgress {phase : Phase} (h : phase.inProgress = true) :
    phase.listens = true ∨ ∃ frame, phase = .responded frame := by
  cases phase with
  | responded frame => exact Or.inr ⟨frame, rfl⟩
  | idle => cases h
  | returned => cases h
  | dropped => cases h
  | _ => exact Or.inl rfl

omit [Externals] in
theorem dispatched (hinv : Inv s) (raw frame : Frame)
    (hfresh : s.phase frame.header.requestId ≠ .idle → frame.header.requestId ∉ s.answered) :
    Dispatched s raw frame (s.dispatch raw frame) := by
  have hid := hinv.consistent frame.header.requestId
  unfold State.dispatch
  dsimp only
  by_cases hpending : frame.header.requestId ∈ s.pending
  · have hnot := (hid.pending_iff.mp hpending).2
    rw [if_pos hpending]
    split_ifs with hlistens
    · exact .handed hlistens hnot
    · have hover : (s.phase frame.header.requestId).inProgress = false := by
        by_contra hlive
        rcases listens_of_inProgress (Bool.of_not_eq_false hlive) with hheard | ⟨response, hphase⟩
        · exact hlistens hheard
        · exact hnot (hid.responded response hphase)
      rw [hover]
      exact .late hover
  · have hidle : s.phase frame.header.requestId = .idle := by
      by_contra hbegun
      exact hpending (hid.pending_iff.mpr ⟨hbegun, hfresh hbegun⟩)
    have hover : (s.phase frame.header.requestId).inProgress = false := by
      rw [hidle]
      rfl
    rw [if_neg hpending, hover]
    exact .unknown hover

end Frames

/-! ### Runs -/

section Runs

variable {s t : State} {id : UInt64} {raw frame : Frame}

structure Track (s : State) : Prop where
  inv : Inv s
  whole : Whole s.stream
  once : Once s
  delivered : Delivered s
  answered : Answered s
  registered : Registered s

omit [Externals] in
/-- The frame that is read is the first to end its request. -/
theorem Track.fresh (h : Track s) (hnext : (next s.stream).1 = some (.ok (some raw)))
    (hterminal : terminal id raw = true) (hbegun : s.phase id ≠ .idle) : id ∉ s.answered := by
  intro hanswered
  obtain ⟨first, hfirst, hends⟩ := h.answered id hanswered
  obtain ⟨later, hqueued⟩ := h.whole.next.kept.order
  have honce := h.once id hbegun
  rw [(next_frame hnext).1, (next_frame hnext).2.1] at hqueued
  rw [hqueued, List.filter_append, List.filter_append, List.filter_cons_of_pos hterminal,
    List.length_append, List.length_append, List.length_cons] at honce
  have hpos := List.length_pos_of_mem (List.mem_filter.mpr ⟨hfirst, hends⟩)
  omega

omit [Externals] in
theorem resolved_header {shm after : Option ShmRing} (h : resolveShm shm raw = (.ok frame, after)) :
    frame.header.msgType = raw.header.msgType ∧ frame.header.requestId = raw.header.requestId :=
  resolveRef_header (congrArg Prod.fst h)

omit [Externals] in
theorem sound_handed {shm after : Option ShmRing} (h : resolveShm shm raw = (.ok frame, after))
    (htype : notifies frame.header.msgType = false) : (Entry.handed raw frame).Sound := by
  obtain ⟨htypes, hids⟩ := resolved_header h
  refine ⟨htypes ▸ htype, htypes, hids, fun hinline => ?_⟩
  have hsame : resolveShm shm raw = (.ok raw, shm) := resolveRef_inline hinline
  exact Except.ok.inj (congrArg Prod.fst (h.symm.trans hsame))

omit [Externals] in
theorem terminal_raw {shm after : Option ShmRing} (h : resolveShm shm raw = (.ok frame, after))
    (htype : notifies frame.header.msgType = false) :
    terminal frame.header.requestId raw = true := by
  obtain ⟨htypes, hids⟩ := resolved_header h
  rw [terminal, ← htypes, htype, hids, decide_eq_true rfl]
  rfl

omit [Externals] in
theorem Registered.goes (h : Registered s) (hcallbacks : t.callbacks.progress = s.callbacks.progress)
    (hwatched : t.watched = s.watched)
    (hlive : ∀ id, (t.phase id).inProgress = true → (s.phase id).inProgress = true)
    (hbegun : ∀ id, s.phase id ≠ .idle → t.phase id ≠ .idle) : Registered t where
  callback id hid hphase := by
    rw [hwatched] at hid
    rw [hcallbacks]
    exact h.callback id hid (hlive id hphase)
  watched := by
    rw [hcallbacks, hwatched]
    exact h.watched
  begun id hid := by
    rw [hwatched] at hid
    exact hbegun id (h.begun id hid)

omit [Externals] in
theorem Registered.aside (h : Registered s) (hcallbacks : t.callbacks.progress = s.callbacks.progress)
    (hwatched : t.watched = s.watched) (hphase : t.phase = s.phase) : Registered t := by
  refine h.goes hcallbacks hwatched (fun id => ?_) fun id => ?_
  · rw [hphase]
    exact fun h => h
  · rw [hphase]
    exact fun h => h

omit [Externals] in
theorem Registered.move (h : Registered s) {phase : Phase}
    (hold : (s.phase id).inProgress = true) (hnew : phase ≠ .idle) : Registered (s.move id phase) := by
  refine h.goes rfl rfl (fun other hlive => ?_) fun other hbegun => ?_
  · by_cases hne : other = id
    · rw [hne]
      exact hold
    · rwa [phase_move_other s phase hne] at hlive
  · by_cases hne : other = id
    · rw [hne, phase_move_self]
      exact hnew
    · rwa [phase_move_other s phase hne]

omit [Externals] in
/-- A request that returns takes its callback with it. -/
theorem Registered.leave (h : Registered s) (hold : (s.phase id).inProgress = true) :
    Registered (s.leave id) := by
  have hmove : Registered (s.move id .returned) := h.move hold nofun
  refine ⟨fun other hother hphase => ?_, fun other hother => ?_, hmove.begun⟩
  · refine Finset.mem_erase.mpr ⟨fun hne => ?_, hmove.callback other hother hphase⟩
    rw [State.leave, hne, phase_move_self] at hphase
    cases hphase
  · exact hmove.watched (Finset.mem_of_mem_erase hother)

omit [Externals] in
theorem Registered.begin (h : Registered s) (hidle : s.phase id = .idle) (watch : Bool)
    (hcallbacks : t.callbacks.progress =
      if watch then insert id s.callbacks.progress else s.callbacks.progress)
    (hwatched : t.watched = if watch then insert id s.watched else s.watched)
    (hphase : t.phase = (s.move id .registered).phase) : Registered t := by
  have hnot : id ∉ s.watched := fun hid => h.begun id hid hidle
  have hothers : ∀ other, other ≠ id →
      (other ∈ t.callbacks.progress ↔ other ∈ s.callbacks.progress) ∧
      (other ∈ t.watched ↔ other ∈ s.watched) ∧ t.phase other = s.phase other := by
    intro other hne
    rw [hcallbacks, hwatched, hphase]
    refine ⟨?_, ?_, phase_move_other s _ hne⟩
    · split_ifs
      · rw [Finset.mem_insert, or_iff_right hne]
      · rfl
    · split_ifs
      · rw [Finset.mem_insert, or_iff_right hne]
      · rfl
  have hself : id ∈ t.callbacks.progress ↔ id ∈ t.watched := by
    rw [hcallbacks, hwatched]
    split_ifs
    · exact iff_of_true (Finset.mem_insert_self id _) (Finset.mem_insert_self id _)
    · exact iff_of_false (fun hid => hnot (h.watched hid)) hnot
  refine ⟨fun other hother hlive => ?_, fun other hother => ?_, fun other hother => ?_⟩
  · by_cases hne : other = id
    · rw [hne] at hother ⊢
      exact hself.mpr hother
    · obtain ⟨hin, hwatch, hsame⟩ := hothers other hne
      rw [hsame] at hlive
      exact hin.mpr (h.callback other (hwatch.mp hother) hlive)
  · by_cases hne : other = id
    · rw [hne] at hother ⊢
      exact hself.mp hother
    · obtain ⟨hin, hwatch, _⟩ := hothers other hne
      exact hwatch.mpr (h.watched (hin.mp hother))
  · by_cases hne : other = id
    · rw [hne, hphase, phase_move_self]
      exact nofun
    · obtain ⟨_, hwatch, hsame⟩ := hothers other hne
      rw [hsame]
      exact h.begun other (hwatch.mp hother)

omit [Externals] in
theorem Answered.insert (h : Answered s) (hanswered : t.answered = insert id s.answered)
    (hreturned : t.stream.returned = s.stream.returned ++ [raw])
    (hterminal : terminal id raw = true) : Answered t := by
  intro other hother
  rw [hreturned]
  rw [hanswered] at hother
  rcases Finset.mem_insert.mp hother with rfl | hold
  · exact ⟨raw, List.mem_append_right _ (List.mem_singleton.mpr rfl), hterminal⟩
  · obtain ⟨first, hfirst, hends⟩ := h other hold
    exact ⟨first, List.mem_append_left _ hfirst, hends⟩

omit [Externals] in
theorem Answered.more (h : Answered s) (hanswered : t.answered = s.answered)
    (hreturned : s.stream.returned <+: t.stream.returned) : Answered t := by
  intro other hother
  rw [hanswered] at hother
  obtain ⟨first, hfirst, hends⟩ := h other hother
  exact ⟨first, hreturned.subset hfirst, hends⟩

/-- What the frames have led to, apart from where the stream is. -/
structure Settled (s : State) : Prop where
  delivered : Delivered s
  answered : Answered s
  registered : Registered s

omit [Externals] in
/-- A request that listens goes on, or ends without a response. -/
theorem Settled.move (h : Settled s) {old phase : Phase} (hphase : s.phase id = old)
    (hold : old.listens = true)
    (hnew : phase.listens = true ∨ phase = .returned ∨ phase = .dropped) :
    Settled (s.move id phase) := by
  subst hphase
  have hbegun : phase ≠ .idle := by
    rintro rfl
    rcases hnew with hnew | hnew | hnew
    · cases hnew
    · cases hnew
    · cases hnew
  exact ⟨h.delivered.move (.of_listens hold hnew), h.answered,
    h.registered.move (inProgress_of_listens hold) hbegun⟩

omit [Externals] in
theorem Settled.leave (h : Settled s) {old : Phase} (hphase : s.phase id = old)
    (hold : old.listens = true) : Settled (s.leave id) := by
  subst hphase
  exact ⟨h.delivered.leave (.of_listens hold (Or.inr (Or.inl rfl))), h.answered,
    h.registered.leave (inProgress_of_listens hold)⟩

omit [Externals] in
theorem Settled.respond (h : Settled s) (hslot : s.slot id = some frame)
    (hlistens : (s.phase id).listens = true) : Settled (s.respond id frame) := by
  have hmove : Registered (s.move id (.responded frame)) :=
    h.registered.move (inProgress_of_listens hlistens) nofun
  exact ⟨h.delivered.respond hslot hlistens, h.answered, hmove.aside rfl rfl rfl⟩

omit [Externals] in
theorem Settled.aside (h : Settled s) (hphase : t.phase = s.phase) (hslot : t.slot = s.slot)
    (hresults : t.results = s.results) (hlog : t.log = s.log) (hanswered : t.answered = s.answered)
    (hwatched : t.watched = s.watched) (hcallbacks : t.callbacks.progress = s.callbacks.progress)
    (hreturned : t.stream.returned = s.stream.returned) : Settled t where
  delivered := h.delivered.aside hphase hslot hresults hlog hreturned
  answered := h.answered.more hanswered (by rw [hreturned])
  registered := h.registered.aside hcallbacks hwatched hphase

omit [Externals] in
theorem settled_dispatched (h : Track s) {shm : Option ShmRing}
    (hnext : (next s.stream).1 = some (.ok (some raw)))
    (hsound : (Entry.handed raw frame).Sound)
    (hterminal : terminal frame.header.requestId raw = true)
    (hdispatched : Dispatched { s with stream := (next s.stream).2, shm := shm } raw frame t) :
    Settled t := by
  obtain ⟨hreturned, _, _⟩ := next_frame hnext
  have hdiscarded : (Entry.discarded raw false).Sound := ⟨hsound.1, rfl⟩
  cases hdispatched with
  | handed hlistens hfresh =>
      have hnone : s.slot frame.header.requestId = none := by
        by_contra hsome
        obtain ⟨held, hheld⟩ := Option.ne_none_iff_exists'.mp hsome
        exact hfresh ((h.inv.consistent _).filled held hheld)
      exact ⟨h.delivered.hand hsound rfl hlistens hnone rfl rfl rfl rfl hreturned,
        h.answered.insert rfl hreturned hterminal, h.registered.aside rfl rfl rfl⟩
  | late hover =>
      exact ⟨h.delivered.note hdiscarded discarded_ne_handed rfl rfl rfl rfl hreturned,
        h.answered.insert rfl hreturned hterminal, h.registered.aside rfl rfl rfl⟩
  | unknown hover =>
      exact ⟨h.delivered.note hdiscarded discarded_ne_handed rfl rfl rfl rfl hreturned,
        h.answered.more rfl ⟨[raw], hreturned.symm⟩, h.registered.aside rfl rfl rfl⟩

theorem settled_taken (h : Track s) {now : Nat} (hphase : s.phase id = .reading)
    (hnext : (next s.stream).1 = some (.ok (some raw)))
    (hresolves : ∃ frame, (resolveShm s.shm raw).1 = .ok frame)
    (htaken : Taken { s with stream := (next s.stream).2 } id now raw t) : Settled t := by
  obtain ⟨hreturned, _, _⟩ := next_frame hnext
  cases htaken with
  | unresolved hresolve =>
      obtain ⟨frame, hframe⟩ := hresolves
      have hresolve' : (resolveShm s.shm raw).1 = _ := congrArg Prod.fst hresolve
      rw [hframe] at hresolve'
      cases hresolve'
  | @notice frame shm called pipeline hresolve hroute =>
      have hsound : (Entry.notice raw called).Sound := by
        change notifies raw.header.msgType = true
        rw [← (resolved_header hresolve).1]
        exact route_notification hroute
      exact ⟨h.delivered.note hsound notice_ne_handed rfl rfl rfl rfl hreturned,
        h.answered.more rfl ⟨[raw], hreturned.symm⟩, h.registered.aside rfl rfl rfl⟩
  | @own frame shm hresolve htype hid =>
      have hnone : s.slot id = none := by
        by_contra hsome
        obtain ⟨held, hheld⟩ := Option.ne_none_iff_exists'.mp hsome
        exact (h.inv.consistent id).reading hphase ((h.inv.consistent id).filled held hheld)
      have hlistens : (s.phase id).listens = true := by
        rw [hphase]
        rfl
      have hterminal := terminal_raw hresolve htype
      rw [hid] at hterminal
      have hmove : Registered (s.move id (.responded frame)) :=
        h.registered.move (inProgress_of_listens hlistens) nofun
      exact ⟨h.delivered.own (sound_handed hresolve htype) hid hlistens hnone rfl rfl rfl rfl
        hreturned, h.answered.insert rfl hreturned hterminal, hmove.aside rfl rfl rfl⟩
  | @other frame shm hresolve htype hid =>
      have hterminal := terminal_raw hresolve htype
      have hinv : Inv { s with stream := (next s.stream).2, shm := shm } :=
        h.inv.aside rfl rfl rfl rfl rfl
      exact settled_dispatched h hnext (sound_handed hresolve htype) hterminal
        (dispatched hinv raw frame fun hbegun => h.fresh hnext hterminal hbegun)

omit [Externals] in
theorem Track.settled (h : Track s) : Settled s := ⟨h.delivered, h.answered, h.registered⟩

omit [Externals] in
/-- Only asking returns a frame. -/
theorem stream_step {stream after : Framed.State} {op : Framed.Op} (hframe : op ≠ .nextFrame)
    (hbuffered : op ≠ .nextBuffered) (hstep : Framed.step stream op = some after) :
    after.returned = stream.returned := by
  cases op with
  | nextFrame => exact absurd rfl hframe
  | nextBuffered => exact absurd rfl hbuffered
  | _ =>
      rw [Framed.step] at hstep
      split_ifs at hstep
      obtain rfl := Option.some.inj hstep
      rfl

theorem settled_step {op : Op} (h : Track s) (hresolves : Resolves s op)
    (hstep : step s op = some t) : Settled t := by
  have hsettled := h.settled
  cases op with
  | begin id watch =>
      obtain ⟨hidle, rfl⟩ := step_begin hstep
      have hmove : Delivered (s.move id .registered) := by
        apply h.delivered.move
        constructor <;> simp [hidle, Phase.listens]
      exact ⟨hmove.aside rfl rfl rfl rfl rfl, h.answered,
        h.registered.begin hidle watch rfl rfl rfl⟩
  | test id =>
      obtain ⟨hphase, rfl⟩ := step_test hstep
      exact hsettled.move hphase rfl (Or.inl rfl)
  | sent id =>
      obtain ⟨⟨contended, hphase⟩, rfl⟩ := step_sent hstep
      exact hsettled.move hphase rfl (Or.inl rfl)
  | writeFails id =>
      obtain ⟨⟨contended, hphase⟩, rfl⟩ := step_writeFails hstep
      exact hsettled.leave hphase rfl
  | receive id =>
      obtain ⟨hphase, frame, hslot, rfl⟩ := step_receive hstep
      exact hsettled.respond hslot (by rw [hphase]; rfl)
  | acquire id =>
      obtain ⟨hphase, _, rfl⟩ := step_acquire hstep
      exact hsettled.move hphase rfl (Or.inl rfl)
  | tryRecv id =>
      obtain ⟨hphase, ⟨frame, hslot, rfl⟩ | ⟨_, rfl⟩⟩ := step_tryRecv hstep
      · exact hsettled.respond hslot (by rw [hphase]; rfl)
      · exact hsettled.move hphase rfl (Or.inl rfl)
  | read id now =>
      obtain ⟨hphase, ⟨hnext, rfl⟩ | ⟨raw, hnext, rfl⟩ | ⟨hnext, rfl⟩⟩ := step_read hstep
      · have hsame : (next s.stream).2.returned = s.stream.returned :=
          (next_none (by simp [hnext])).1
        exact hsettled.aside rfl rfl rfl rfl rfl rfl rfl hsame
      · exact settled_taken h hphase hnext (hresolves raw hnext) (taken _ id now raw)
      · have hsame : (next s.stream).2.returned = s.stream.returned := by
          rcases hnext with hnext | ⟨e, hnext⟩
          · exact (next_none (by simp [hnext])).1
          · exact (next_none (by simp [hnext])).1
        exact (hsettled.leave hphase rfl).aside rfl rfl rfl rfl rfl rfl rfl hsame
  | timeout id =>
      obtain ⟨hphase | hphase, rfl⟩ := step_timeout hstep
      · exact hsettled.leave hphase rfl
      · exact hsettled.leave hphase rfl
  | finish id moment cacheKey =>
      obtain ⟨frame, hphase, rfl⟩ := step_finish hstep
      have hleave : Delivered (s.leave id) := by
        apply h.delivered.leave
        constructor <;> simp [hphase, Phase.listens]
      exact ⟨hleave.aside rfl rfl rfl rfl rfl, h.answered,
        (h.registered.leave (by rw [hphase]; rfl)).aside rfl rfl rfl⟩
  | drop id =>
      obtain ⟨⟨contended, hphase⟩ | hphase | hphase, rfl⟩ := step_drop hstep
      · exact hsettled.move hphase rfl (Or.inr (Or.inr rfl))
      · exact hsettled.move hphase rfl (Or.inr (Or.inr rfl))
      · exact hsettled.move hphase rfl (Or.inr (Or.inr rfl))
  | stream op =>
      obtain ⟨stream, hframe, hbuffered, hstream, rfl⟩ := step_stream hstep
      have hsame := stream_step hframe hbuffered hstream
      exact hsettled.aside rfl rfl rfl rfl rfl rfl rfl hsame
  | ring shm =>
      obtain rfl := Option.some.inj hstep
      exact hsettled.aside rfl rfl rfl rfl rfl rfl rfl rfl
  | listen resourceUpdated resourceListChanged =>
      obtain rfl := Option.some.inj hstep
      exact hsettled.aside rfl rfl rfl rfl rfl rfl rfl rfl

omit [Externals] in
theorem stream_dispatch (s : State) (raw frame : Frame) :
    (s.dispatch raw frame).stream = s.stream := by
  unfold State.dispatch
  dsimp only
  split_ifs <;> rfl

theorem stream_taken {now : Nat} (htaken : Taken s id now raw t) : t.stream = s.stream := by
  cases htaken with
  | unresolved => rfl
  | notice => rfl
  | own => rfl
  | other => exact stream_dispatch _ _ _

theorem whole_step {op : Op} (h : Whole s.stream) (hproper : Proper s op)
    (hstep : step s op = some t) : Whole t.stream := by
  cases op with
  | begin id watch =>
      obtain ⟨_, rfl⟩ := step_begin hstep
      exact h
  | test id =>
      obtain ⟨_, rfl⟩ := step_test hstep
      exact h
  | sent id =>
      obtain ⟨_, rfl⟩ := step_sent hstep
      exact h
  | writeFails id =>
      obtain ⟨_, rfl⟩ := step_writeFails hstep
      exact h
  | receive id =>
      obtain ⟨_, _, _, rfl⟩ := step_receive hstep
      exact h
  | acquire id =>
      obtain ⟨_, _, rfl⟩ := step_acquire hstep
      exact h
  | tryRecv id =>
      obtain ⟨_, ⟨_, _, rfl⟩ | ⟨_, rfl⟩⟩ := step_tryRecv hstep
      · exact h
      · exact h
  | read id now =>
      obtain ⟨_, ⟨_, rfl⟩ | ⟨raw, _, rfl⟩ | ⟨_, rfl⟩⟩ := step_read hstep
      · exact h.next
      · rw [stream_taken (taken _ id now raw)]
        exact h.next
      · exact h.next
  | timeout id =>
      obtain ⟨_, rfl⟩ := step_timeout hstep
      exact h
  | finish id moment cacheKey =>
      obtain ⟨_, _, rfl⟩ := step_finish hstep
      exact h
  | drop id =>
      obtain ⟨_, rfl⟩ := step_drop hstep
      exact h
  | stream op =>
      obtain ⟨stream, _, _, hstream, rfl⟩ := step_stream hstep
      exact Framed.intact_step op h hproper hstream
  | ring shm =>
      obtain rfl := Option.some.inj hstep
      exact h
  | listen resourceUpdated resourceListChanged =>
      obtain rfl := Option.some.inj hstep
      exact h

theorem Track.step {op : Op} (h : Track s) (hallowed : Allowed s op) (hstep : step s op = some t) :
    Track t := by
  obtain ⟨hproper, hresolves, honce⟩ := hallowed
  have hsettled := settled_step h hresolves hstep
  exact ⟨h.inv.step hstep, whole_step h.whole hproper hstep, honce t hstep, hsettled.delivered,
    hsettled.answered, hsettled.registered⟩

omit [Externals] in
theorem track_start (shm : Option ShmRing) (pipeline : PayloadPipeline) :
    Track (start shm pipeline) where
  inv := inv_start shm pipeline
  whole := ⟨[], 0, [], [], Framed.intact_init⟩
  once _ hbegun := absurd rfl hbegun
  delivered :=
    { read := rfl
      sound := fun _ h => absurd h List.not_mem_nil
      served := fun _ =>
        { slot := fun _ h => (by cases h)
          result := fun _ h => absurd h List.not_mem_nil
          finished := fun _ h => absurd h List.not_mem_nil
          handed := fun _ _ h => absurd h List.not_mem_nil }
      once := List.nodup_nil }
  answered := fun _ h => absurd h (Finset.notMem_empty _)
  registered :=
    { callback := fun _ h => absurd h (Finset.notMem_empty _)
      watched := Finset.Subset.refl _
      begun := fun _ h => absurd h (Finset.notMem_empty _) }

/-- The frames go through in the order they were queued in: a notification comes before each
response that was queued after it. -/
def Ordered (s : State) : Prop :=
  ∀ (i j : Nat) (note raw frame : Frame), i < j → s.stream.queued[i]? = some note →
    notifies note.header.msgType = true → s.log[j]? = some (.handed raw frame) →
    ∃ called, s.log[i]? = some (.notice note called)

omit [Externals] in
theorem Delivered.ordered (h : Delivered s) (hkept : Kept s.stream) : Ordered s := by
  intro i j note raw frame hlt hqueued htype hhanded
  obtain ⟨later, horder⟩ := hkept.order
  have hj : j < s.log.length := (List.getElem?_eq_some_iff.mp hhanded).1
  have hi : i < s.log.length := hlt.trans hj
  obtain ⟨entry, hentry⟩ : ∃ entry, s.log[i]? = some entry := ⟨_, List.getElem?_eq_getElem hi⟩
  have hraw : s.stream.returned[i]? = some entry.raw := by
    rw [← h.read, List.getElem?_map, hentry, Option.map_some]
  have hsame : entry.raw = note := by
    rw [horder, List.getElem?_append_left (List.getElem?_eq_some_iff.mp hraw).1, hraw] at hqueued
    exact Option.some.inj hqueued
  have hsound := h.sound entry (List.mem_of_getElem? hentry)
  cases entry with
  | handed raw' frame' =>
      have hraw' : notifies raw'.header.msgType = false := hsound.1
      rw [show raw' = note from hsame, htype] at hraw'
      cases hraw'
  | discarded raw' live =>
      have hraw' : notifies raw'.header.msgType = false := hsound.1
      rw [show raw' = note from hsame, htype] at hraw'
      cases hraw'
  | notice raw' called =>
      obtain rfl : raw' = note := hsame
      exact ⟨called, hentry⟩
  | unresolved raw' => exact hsound.elim

/-- The frame is the progress that is told under the key of the session. -/
def Reports (key : Option Bytes32) (params : ProgressParams) (frame : Frame) : Prop :=
  ∃ (sender : PayloadPipeline) (id : UInt64), sender.cipherKey = key ∧
    frame = (sender.wrap .progress id (Externals.toVec .progressParams params)).1

/-- What the one who reads does with a frame: a response goes to its request if that is in progress,
and progress to the callback registered for the request it is about, and to no other. -/
structure Handles (key : Option Bytes32) (s t : State) (now : Nat) (raw frame : Frame) : Prop where
  response : notifies raw.header.msgType = false → t.log = s.log ++
    [if (s.phase raw.header.requestId).inProgress then .handed raw frame else .discarded raw false]
  progress : ∀ params, Reports key params raw →
    Externals.fromSlice .progressParams (Externals.toVec .progressParams params) = some params →
    t.log = s.log ++ [.notice raw
      (if params.requestId ∈ s.callbacks.progress then some (.progress params) else none)]
  callback : ∀ params, t.log = s.log ++ [.notice raw (some (.progress params))] →
    raw.header.msgType = .progress ∧ params.requestId ∈ s.callbacks.progress ∧
      ∃ body, (s.pipeline.unwrap now frame).1 = .ok body ∧
        Externals.fromSlice .progressParams body = some params

/-! ### The callback for progress -/

theorem cipherKey_route {callbacks : Callbacks} {pipeline after : PayloadPipeline} {now : Nat}
    {routed : Routed} (hroute : route callbacks pipeline now frame = (routed, after)) :
    after.cipherKey = pipeline.cipherKey := by
  have hbody : ∀ schema, (notificationBody schema pipeline now frame).2.cipherKey =
      pipeline.cipherKey := by
    intro schema
    rw [← PayloadPipeline.cipherKey_unwrap pipeline now frame, notificationBody]
    split
    · next _ _ h => rw [h]
    · next _ _ h => rw [h]
  obtain rfl : (route callbacks pipeline now frame).2 = after := congrArg Prod.snd hroute
  unfold route
  split
  · exact hbody _
  · rfl
  · exact hbody _
  · rfl

theorem cipherKey_finishRequest (pipeline : PayloadPipeline) (moment : Moment)
    (cacheKey : Option CacheKey) (response : Frame) :
    (finishRequest pipeline moment cacheKey response).2.cipherKey = pipeline.cipherKey := by
  have hkey := PayloadPipeline.cipherKey_unwrap pipeline moment.now response
  rw [← hkey, finishRequest]
  split
  · next _ _ h => rw [h]
  · next _ _ h =>
      rw [h]
      cases cacheKey with
      | none =>
          split_ifs
          · rfl
          · rfl
          · rfl
      | some key =>
          dsimp only
          split_ifs
          · rfl
          · rfl
          · rfl

omit [Externals] in
theorem pipeline_dispatch (s : State) (raw frame : Frame) :
    (s.dispatch raw frame).pipeline = s.pipeline := by
  unfold State.dispatch
  dsimp only
  split_ifs <;> rfl

/-- No step changes the key. -/
theorem cipherKey_step {op : Op} (hstep : step s op = some t) :
    t.pipeline.cipherKey = s.pipeline.cipherKey := by
  cases op with
  | begin id watch =>
      obtain ⟨_, rfl⟩ := step_begin hstep
      rfl
  | test id =>
      obtain ⟨_, rfl⟩ := step_test hstep
      rfl
  | sent id =>
      obtain ⟨_, rfl⟩ := step_sent hstep
      rfl
  | writeFails id =>
      obtain ⟨_, rfl⟩ := step_writeFails hstep
      rfl
  | receive id =>
      obtain ⟨_, _, _, rfl⟩ := step_receive hstep
      rfl
  | acquire id =>
      obtain ⟨_, _, rfl⟩ := step_acquire hstep
      rfl
  | tryRecv id =>
      obtain ⟨_, ⟨_, _, rfl⟩ | ⟨_, rfl⟩⟩ := step_tryRecv hstep
      · rfl
      · rfl
  | read id now =>
      obtain ⟨_, ⟨_, rfl⟩ | ⟨raw, _, rfl⟩ | ⟨_, rfl⟩⟩ := step_read hstep
      · rfl
      · have htaken := taken { s with stream := (next s.stream).2 } id now raw
        generalize State.take { s with stream := (next s.stream).2 } id now raw = u at htaken
        cases htaken with
        | unresolved => rfl
        | notice hresolve hroute => exact cipherKey_route hroute
        | own => rfl
        | other => exact congrArg PayloadPipeline.cipherKey (pipeline_dispatch _ _ _)
      · rfl
  | timeout id =>
      obtain ⟨_, rfl⟩ := step_timeout hstep
      rfl
  | finish id moment cacheKey =>
      obtain ⟨frame, _, rfl⟩ := step_finish hstep
      exact cipherKey_finishRequest s.pipeline moment cacheKey frame
  | drop id =>
      obtain ⟨_, rfl⟩ := step_drop hstep
      rfl
  | stream op =>
      obtain ⟨_, _, _, _, rfl⟩ := step_stream hstep
      rfl
  | ring shm =>
      obtain rfl := Option.some.inj hstep
      rfl
  | listen resourceUpdated resourceListChanged =>
      obtain rfl := Option.some.inj hstep
      rfl

/-- Progress that is told under the key is not in the ring, and reads back as it was. -/
theorem Reports.body (hx : Externals.Lossless) {pipeline : PayloadPipeline} {params : ProgressParams}
    (hreports : Reports pipeline.cipherKey params raw) (shm : Option ShmRing) (now : Nat) :
    raw.header.msgType = .progress ∧ resolveShm shm raw = (.ok raw, shm) ∧
      notificationBody .progressParams pipeline now raw =
        (Externals.fromSlice .progressParams (Externals.toVec .progressParams params), pipeline) := by
  obtain ⟨sender, id, hkey, rfl⟩ := hreports
  refine ⟨rfl, ?_, ?_⟩
  · exact resolveRef_inline (PayloadPipeline.wrap_flags sender .progress id _).2.2.1
  · rw [notificationBody, PayloadPipeline.unwrap_wrap hx hkey.symm now]

theorem notificationBody_some {schema : Schema} {pipeline : PayloadPipeline} {now : Nat}
    {body : schema.Body} (h : (notificationBody schema pipeline now frame).1 = some body) :
    ∃ payload, (pipeline.unwrap now frame).1 = .ok payload ∧
      Externals.fromSlice schema payload = some body := by
  rw [notificationBody] at h
  split at h
  · next payload _ hunwrap => exact ⟨payload, by rw [hunwrap], h⟩
  · cases h

theorem route_progress {callbacks : Callbacks} {pipeline after : PayloadPipeline} {now : Nat}
    {called : Option Callback} (htype : frame.header.msgType = .progress)
    (hroute : route callbacks pipeline now frame = (.notification called, after)) :
    called = (notificationBody .progressParams pipeline now frame).1.bind fun params =>
      if params.requestId ∈ callbacks.progress then some (.progress params) else none := by
  simp only [route, htype] at hroute
  exact (Routed.notification.inj (congrArg Prod.fst hroute)).symm

/-- Only progress leads to a callback for progress. -/
theorem route_called {callbacks : Callbacks} {pipeline after : PayloadPipeline} {now : Nat}
    {params : ProgressParams}
    (hroute : route callbacks pipeline now frame = (.notification (some (.progress params)), after)) :
    frame.header.msgType = .progress ∧
      (notificationBody .progressParams pipeline now frame).1 = some params ∧
      params.requestId ∈ callbacks.progress := by
  have hnotifies := route_notification hroute
  cases htype : frame.header.msgType with
  | progress =>
      obtain ⟨params', hbody, hcalled⟩ :=
        Option.bind_eq_some_iff.mp (route_progress htype hroute).symm
      split_ifs at hcalled with hmem
      obtain rfl := Callback.progress.inj (Option.some.inj hcalled)
      exact ⟨rfl, hbody, hmem⟩
  | resourceListChanged =>
      simp only [route, htype] at hroute
      have hcalled := Routed.notification.inj (congrArg Prod.fst hroute)
      split_ifs at hcalled
      cases hcalled
  | resourceUpdated =>
      simp only [route, htype] at hroute
      obtain ⟨uri, _, hcalled⟩ :=
        Option.bind_eq_some_iff.mp (Routed.notification.inj (congrArg Prod.fst hroute))
      split_ifs at hcalled
      cases hcalled
  | _ =>
      rw [htype] at hnotifies
      cases hnotifies

/-- A response leads to no callback. -/
theorem Handles.of_response {key : Option Bytes32} {now : Nat} (htype : notifies raw.header.msgType = false)
    {entry : Entry} (hlog : t.log = s.log ++ [entry])
    (hentry : entry = if (s.phase raw.header.requestId).inProgress then .handed raw frame
      else .discarded raw false) : Handles key s t now raw frame where
  response _ := by rw [hlog, hentry]
  progress params hreports := by
    obtain ⟨_, _, _, rfl⟩ := hreports
    cases htype
  callback params hcalled := by
    rw [hlog, hentry] at hcalled
    have hsame := List.singleton_injective (List.append_cancel_left hcalled)
    split_ifs at hsame

theorem handles_taken (hx : Externals.Lossless) (h : Track s) {now : Nat} {shm : Option ShmRing}
    (hphase : s.phase id = .reading) (hnext : (next s.stream).1 = some (.ok (some raw)))
    (hresolve : resolveShm s.shm raw = (.ok frame, shm))
    (htaken : Taken { s with stream := (next s.stream).2 } id now raw t) :
    Handles s.pipeline.cipherKey s t now raw frame := by
  obtain ⟨htypes, hids⟩ := resolved_header hresolve
  cases htaken with
  | unresolved hfails =>
      have hfails' : resolveShm s.shm raw = _ := hfails
      rw [hresolve] at hfails'
      cases congrArg Prod.fst hfails'
  | @notice frame' shm' called pipeline hresolve' hroute =>
      obtain ⟨hframe, _⟩ := Prod.mk.inj (hresolve.symm.trans hresolve')
      obtain rfl := Except.ok.inj hframe
      have hroute' : route s.callbacks s.pipeline now frame = (.notification called, pipeline) :=
        hroute
      have hnotifies := route_notification hroute'
      refine ⟨fun htype => ?_, fun params hreports hreads => ?_, fun params hcalled => ?_⟩
      · rw [← htypes, hnotifies] at htype
        cases htype
      · obtain ⟨htype, hinline, hbody⟩ := hreports.body hx s.shm now
        obtain rfl : frame = raw :=
          Except.ok.inj (congrArg Prod.fst (hresolve.symm.trans hinline))
        have hcalled := route_progress htype hroute'
        rw [hbody, hreads, Option.bind_some] at hcalled
        rw [← hcalled]
      · obtain ⟨_, rfl⟩ :=
          Entry.notice.inj (List.singleton_injective (List.append_cancel_left hcalled))
        obtain ⟨htype, hbody, hmem⟩ := route_called hroute'
        exact ⟨htypes.symm.trans htype, hmem, notificationBody_some hbody⟩
  | @own frame' shm' hresolve' htype hid =>
      obtain ⟨hframe, _⟩ := Prod.mk.inj (hresolve.symm.trans hresolve')
      obtain rfl := Except.ok.inj hframe
      refine .of_response (htypes ▸ htype) rfl ?_
      rw [← hids, hid, hphase]
      rfl
  | @other frame' shm' hresolve' htype hid =>
      obtain ⟨hframe, _⟩ := Prod.mk.inj (hresolve.symm.trans hresolve')
      obtain rfl := Except.ok.inj hframe
      have hterminal := terminal_raw hresolve htype
      have hinv : Inv { s with stream := (next s.stream).2, shm := shm' } :=
        h.inv.aside rfl rfl rfl rfl rfl
      have hdispatched := dispatched hinv raw frame fun hbegun => h.fresh hnext hterminal hbegun
      revert hdispatched
      generalize State.dispatch _ raw frame = u
      intro hdispatched
      cases hdispatched with
      | handed hlistens =>
          refine .of_response (htypes ▸ htype) rfl ?_
          have hlive := inProgress_of_listens hlistens
          rw [← hids, if_pos hlive]
      | late hover =>
          refine .of_response (htypes ▸ htype) rfl ?_
          rw [← hids, if_neg (Bool.eq_false_iff.mp hover)]
      | unknown hover =>
          refine .of_response (htypes ▸ htype) rfl ?_
          rw [← hids, if_neg (Bool.eq_false_iff.mp hover)]

/-- Whatever the order the frames come in, the tasks read in and the requests are given up in. -/
theorem frames_reach_requests (hx : Externals.Lossless) {shm : Option ShmRing}
    {pipeline : PayloadPipeline} {ops : List Op}
    (hrun : Run step Allowed (start shm pipeline) ops s) :
    Delivered s ∧ Kept s.stream ∧ Ordered s ∧ Registered s ∧
    ∀ id now raw t, step s (.read id now) = some t → Resolves s (.read id now) →
      (next s.stream).1 = some (.ok (some raw)) →
      ∃ frame, (resolveShm s.shm raw).1 = .ok frame ∧
        Handles pipeline.cipherKey s t now raw frame := by
  have htrack : Track s :=
    hrun.invariant (fun _ _ _ htrack hallowed hstep => htrack.step hallowed hstep)
      (track_start shm pipeline)
  have hkey : s.pipeline.cipherKey = pipeline.cipherKey :=
    hrun.invariant (p := fun s => s.pipeline.cipherKey = pipeline.cipherKey)
      (fun _ _ _ hkey _ hstep => (cipherKey_step hstep).trans hkey) rfl
  have hkept := htrack.whole.kept
  refine ⟨htrack.delivered, hkept, htrack.delivered.ordered hkept, htrack.registered, ?_⟩
  intro id now raw t hstep hresolves hnext
  obtain ⟨frame, hframe⟩ := hresolves raw hnext
  refine ⟨frame, hframe, ?_⟩
  rw [← hkey]
  obtain ⟨hphase, ⟨hwaits, _⟩ | ⟨raw', hnext', rfl⟩ | ⟨hends, _⟩⟩ := step_read hstep
  · rw [hnext] at hwaits
    cases hwaits
  · rw [hnext] at hnext'
    obtain rfl := Option.some.inj (Except.ok.inj (Option.some.inj hnext'))
    exact handles_taken hx htrack hphase hnext (Prod.ext hframe rfl) (taken _ id now raw)
  · rw [hnext] at hends
    rcases hends with hends | ⟨e, hends⟩
    · cases hends
    · cases hends

end Runs

/-! ### Two requests -/

/-- No frame that is queued or read is a reference, and at most one is a response. -/
def allows (s : State) (op : Op) : Bool :=
  (match op with
    | .stream (.queue frame) => decide frame.WellFormed
    | _ => true) &&
  (match (next s.stream).1 with
    | some (.ok (some raw)) => !raw.header.flags.shmRef
    | _ => true) &&
  (match step s op with
    | some t => decide ((t.stream.queued.filter fun frame => !notifies frame.header.msgType).length ≤ 1)
    | none => true)

omit [Externals] in
theorem once_of_single {s : State}
    (hsingle : (s.stream.queued.filter fun frame => !notifies frame.header.msgType).length ≤ 1) :
    Once s := by
  intro id _
  refine le_trans (List.Sublist.length_le ?_) hsingle
  refine List.monotone_filter_right s.stream.queued fun frame hterminal => ?_
  exact (Bool.and_eq_true_iff.mp hterminal).1

theorem allowed_of_allows {s : State} {op : Op} (h : allows s op = true) :
    Allowed s op := by
  simp only [allows, Bool.and_eq_true] at h
  obtain ⟨⟨hproper, hinline⟩, hsingle⟩ := h
  refine ⟨?_, ?_, ?_⟩
  · cases op with
    | stream op =>
        cases op with
        | queue frame => 
            exact of_decide_eq_true (p := frame.WellFormed) hproper
        | _ => trivial
    | _ => trivial
  · cases op with
    | read id now =>
        intro raw hnext
        simp only [hnext, Bool.not_eq_true'] at hinline
        exact ⟨raw, congrArg Prod.fst (resolveRef_inline hinline)⟩
    | _ => trivial
  · intro t hstep
    simp only [hstep] at hsingle
    exact once_of_single (of_decide_eq_true hsingle)

section Watched

omit [Externals]

def progressJson : Bytes :=
  utf8 "\x7b\"requestId\":2,\"progress\":0,\"total\":1,\"message\":\"executing t\"\x7d"

def executing : ProgressParams := ⟨2, 0, some 1, some "executing t"⟩

/-- `serde_json` on the progress of the run below. -/
@[reducible] def progressExternals : Externals := { Externals.plain with
  toVec := fun _ _ => progressJson
  fromSlice := fun schema => match schema with
    | .progressParams => fun body => if body = progressJson then some executing else none
    | _ => fun _ => none }

theorem progressExternals_lossless : @Externals.Lossless progressExternals :=
  @Externals.Lossless.mk progressExternals
    (@Externals.Lossless.decompress_compress .plain Externals.plain_lossless)
    (@Externals.Lossless.decrypt_encrypt .plain Externals.plain_lossless)
    (@Externals.Lossless.length_encrypt .plain Externals.plain_lossless)

/-- An end of an encrypted session. -/
def keyedEnd : PayloadPipeline :=
  PayloadPipeline.new.enableEncryption .zeros [0, 0, 0, 0] length_zeroPrefix

def progressFrame : Frame :=
  letI : Externals := progressExternals
  (keyedEnd.wrap .progress 2 (Externals.toVec .progressParams executing)).1

def resultFrame : Frame :=
  letI : Externals := progressExternals
  (keyedEnd.wrap .callToolResult 2 [1, 2, 3]).1

/-- The first request reads, and the server answers the second. -/
def readingOps : List Op :=
  [.begin 1 false, .test 1, .sent 1, .begin 2 true, .test 2, .sent 2, .acquire 1, .tryRecv 1,
    .stream (.queue progressFrame), .stream (.queue resultFrame), .stream .flush,
    .stream (.arrive 1000)]

/-- The first request hands the response over and is dropped with the lock, and the second finds
it. -/
def handOverOps : List Op := [.read 1 0, .drop 1, .acquire 2, .tryRecv 2]

/-- The first request reads the progress of the second, for which a callback is registered. -/
theorem frames_reach_requests_watched : letI : Externals := progressExternals
    ∃ s t u, Run step Allowed (start none keyedEnd) readingOps s ∧
      step s (.read 1 0) = some t ∧ t.log = [.notice progressFrame (some (.progress executing))] ∧
      Run step Allowed t handOverOps u ∧ Delivered u ∧ u.results = [(2, resultFrame)] ∧
      u.locked = false := by
  let _ : Externals := progressExternals
  have hexec : ((exec step allows (start none keyedEnd) readingOps).bind fun s =>
      if s.log.length = 0 ∧ 2 ∈ s.callbacks.progress ∧ allows s (.read 1 0) = true ∧
        ((next s.stream).1.map fun read => read.toOption) = some (some (some progressFrame)) then
        (step s (.read 1 0)).bind fun t =>
          (exec step allows t handOverOps).map fun u => (u.results, u.locked)
      else none) = some ([(2, resultFrame)], false) := by
    decide +kernel
  obtain ⟨s, hfirst, hrest⟩ := Option.bind_eq_some_iff.mp hexec
  split_ifs at hrest with hread
  obtain ⟨hlog, hwatched, hallows, hnext⟩ := hread
  obtain ⟨t, hstep, hlast⟩ := Option.bind_eq_some_iff.mp hrest
  obtain ⟨u, hsecond, hview⟩ := Option.map_eq_some_iff.mp hlast
  obtain ⟨hresults, hlocked⟩ := Prod.mk.inj hview
  have hrun : Run step Allowed (start none keyedEnd) readingOps s :=
    (run_of_exec hfirst).weaken fun _ _ => allowed_of_allows
  have hrun' : Run step Allowed t handOverOps u :=
    (run_of_exec hsecond).weaken fun _ _ => allowed_of_allows
  have hnext' : (next s.stream).1 = some (.ok (some progressFrame)) := by
    obtain ⟨read, hread, hframe⟩ := Option.map_eq_some_iff.mp hnext
    rcases read with e | frame
    · cases hframe
    · rw [hread]
      exact congrArg (some ∘ Except.ok) (Option.some.inj hframe)
  obtain ⟨frame, _, hhandles⟩ := (frames_reach_requests progressExternals_lossless hrun).2.2.2.2
    1 0 progressFrame t hstep (allowed_of_allows hallows).2.1 hnext'
  have hdelivered := (frames_reach_requests progressExternals_lossless
    ((hrun.snoc hstep (allowed_of_allows hallows)).append hrun')).1
  refine ⟨s, t, u, hrun, hstep, ?_, hrun', hdelivered, hresults, hlocked⟩
  have hprogress := hhandles.progress executing ⟨keyedEnd, 2, rfl, rfl⟩ (if_pos rfl)
  have hregistered : executing.requestId ∈ s.callbacks.progress := hwatched
  rw [hprogress, List.eq_nil_of_length_eq_zero hlog, if_pos hregistered]
  rfl

end Watched

end Requests

end Ohmcp
