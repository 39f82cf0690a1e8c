import Ohmcp.Client
import Ohmcp.Session
import Ohmcp.FrameCodec
import Ohmcp.RingIntegrity

/-! Concurrent requests of one client over the uplink ring. A task writes its record into the ring
before it waits for the writer, so the references may reach the server in another order than the
records were written in; the server releases space as far as the reference it resolves. -/

open Circular Transition

namespace Ohmcp

variable [Externals]

namespace Uplink

/-! ### The system -/

structure Request where
  id : UInt64
  msgType : MsgType
  payload : Bytes

/-- A request whose frame is built, and where its record lies if it has one. -/
structure Pending where
  request : Request
  frame : Frame
  offset : Option Nat

omit [Externals] in
def Pending.record (pending : Pending) : Option ShmRing.Record :=
  pending.offset.map (⟨·, pending.request.payload⟩)

structure State where
  client : PayloadPipeline
  ring : Option ShmRing
  /-- Requests that wait for the writer. -/
  built : List Pending
  /-- Requests that are queued and that the server has not come to, in the order of their frames. -/
  queued : List Pending
  /-- The writer's buffer. -/
  out : Bytes
  wire : Bytes
  server : PayloadPipeline
  /-- What the tasks passed, in the order they built their frames. -/
  passed : List Request
  /-- What was queued, in the order of the frames. -/
  sent : List Request
  /-- What the server dispatched. -/
  dispatched : List (MsgType × UInt64 × Bytes)
  failed : Option Failure

inductive Op where
  /-- A task builds its frame, by way of the ring where it is large and fits. -/
  | build (request : Request)
  /-- A task that waits gets the writer and queues its frame. -/
  | queue (i : Nat)
  /-- A task that waits is dropped. -/
  | abandon (i : Nat)
  | flush
  /-- The server takes one frame. -/
  | receive (now : Nat)

def init (client server : PayloadPipeline) (ring : Option ShmRing) : State :=
  ⟨client, ring, [], [], [], [], server, [], [], [], none⟩

def State.build (s : State) (request : Request) : State :=
  let (frame, client, ring) := requestFrame s.client s.ring request.msgType request.id request.payload
  { s with
    client := client
    ring := ring
    built := s.built ++ [⟨request, frame, recordOffset s.ring request.payload⟩]
    passed := s.passed ++ [request] }

def State.queue (s : State) (i : Nat) (pending : Pending) : State :=
  { s with
    built := s.built.eraseIdx i
    queued := s.queued ++ [pending]
    out := s.out ++ pending.frame.encode
    sent := s.sent ++ [pending.request] }

/-- The server resolves a frame, and dispatches what it unwraps to. -/
def State.take (s : State) (now : Nat) (frame : Frame) (rest : Bytes) : State :=
  let s := { s with queued := s.queued.tail, wire := rest }
  match resolveRef uplinkErrors s.ring frame with
  | (.error e, ring) => { s with ring := ring, failed := some (.text e) }
  | (.ok frame, ring) =>
      let s := { s with ring := ring }
      match s.server.unwrap now frame with
      | (.error e, server) => { s with server := server, failed := some (.text e) }
      | (.ok body, server) => { s with
          server := server
          dispatched := s.dispatched ++ [(frame.header.msgType, frame.header.requestId, body)] }

def step (s : State) : Op → Option State
  | .build request => some (s.build request)
  | .queue i => s.built[i]?.map (s.queue i)
  | .abandon i => some { s with built := s.built.eraseIdx i }
  | .flush => some { s with wire := s.wire ++ s.out, out := [] }
  | .receive now =>
      if s.failed.isSome then none
      else
        match Frame.decode s.wire with
        | (.ok (some frame), rest) => some (s.take now frame rest)
        | (.ok none, _) => none
        | (.error e, rest) => some { s with wire := rest, failed := some (.core e) }

/-! ### When the payloads are safe -/

/-- The records whose references the server has not resolved. -/
def State.unresolved (s : State) : List ShmRing.Record :=
  (s.built ++ s.queued).filterMap Pending.record

/-- The length of the frame fits its field, and no write takes the ring's cursors to `2^64`. -/
def Fits (s : State) : Op → Prop
  | .build request =>
      (requestFrame s.client s.ring request.msgType request.id request.payload).1.payload.length <
          2 ^ 32 ∧
        ∀ ring, s.ring = some ring → shmThreshold ≤ request.payload.length →
          ring.WriteFits request.payload
  | _ => True

/-- A record that the ring has room for goes to no cell of an unresolved record. -/
def Clear (s : State) : Op → Prop
  | .build request => ∀ ring, s.ring = some ring → shmThreshold ≤ request.payload.length →
      let pos := nextFit ring.cap ring.head request.payload.length
      pos + request.payload.length ≤ ring.tail + ring.cap →
        ∀ record ∈ s.unresolved,
          Apart ring.cap pos request.payload.length record.offset record.data.length
  | _ => True

/-! ### The invariant -/

/-- The frame states its length, and ships the payload. -/
structure Pending.Ready (pending : Pending) (key : Option Bytes32) : Prop where
  payloadLen_eq : pending.frame.header.payloadLen = Frame.lenU32 pending.frame.payload
  length_lt : pending.frame.payload.length < 2 ^ 32
  ships : Ships key pending.request.msgType pending.request.id pending.request.payload pending.frame
    pending.offset

def dispatchedAs (request : Request) : MsgType × UInt64 × Bytes :=
  (request.msgType, request.id, request.payload)

structure Sound (s : State) (past : List Request) (onWire buffered : List Pending) : Prop where
  sameKey : s.server.cipherKey = s.client.cipherKey
  queued_eq : s.queued = onWire ++ buffered
  wire_eq : s.wire = Frame.encodeAll (onWire.map Pending.frame)
  out_eq : s.out = Frame.encodeAll (buffered.map Pending.frame)
  ready : ∀ pending ∈ s.built ++ s.queued, pending.Ready s.client.cipherKey
  cap_le : ∀ ring, s.ring = some ring → ring.cap ≤ maxShmCap
  keeps : ∀ ring, s.ring = some ring → ring.Keeps s.unresolved
  ringless : s.ring = none → s.unresolved = []
  sent_eq : s.sent = past ++ s.queued.map Pending.request
  dispatched_eq : s.dispatched = past.map dispatchedAs
  passed : ∀ pending ∈ s.built, pending.request ∈ s.passed
  sent_passed : ∀ request ∈ s.sent, request ∈ s.passed
  failed_large : ∀ failure, s.failed = some failure → ∃ len, failure = .core (.frameTooLarge len)

theorem sound_init {client server : PayloadPipeline} (hkey : client.SameKey server) {cap : Nat}
    (hcap : 0 < cap) (hle : cap ≤ maxShmCap) :
    Sound (init client server (some (.create cap hcap))) [] [] [] where
  sameKey := hkey
  queued_eq := rfl
  wire_eq := rfl
  out_eq := rfl
  ready := fun _ hmem => absurd hmem List.not_mem_nil
  cap_le := by
    rintro ring hring
    obtain rfl := Option.some.inj hring
    exact hle
  keeps := by
    rintro ring hring
    obtain rfl := Option.some.inj hring
    exact ⟨Nat.le_refl 0, Nat.two_pow_pos 64, fun _ hmem => absurd hmem List.not_mem_nil⟩
  ringless := fun hnone => absurd hnone (Option.some_ne_none _)
  sent_eq := rfl
  dispatched_eq := rfl
  passed := fun _ hmem => absurd hmem List.not_mem_nil
  sent_passed := fun _ hmem => absurd hmem List.not_mem_nil
  failed_large := fun _ hfailed => absurd hfailed.symm (Option.some_ne_none _)

/-! ### Steps -/

section Steps

variable {s t : State} {past : List Request} {onWire buffered : List Pending}

omit [Externals] in
theorem mem_unresolved {s : State} {record : ShmRing.Record} :
    record ∈ s.unresolved ↔
      ∃ pending, (pending ∈ s.built ∨ pending ∈ s.queued) ∧ pending.record = some record := by
  rw [State.unresolved, List.mem_filterMap]
  simp only [List.mem_append]

omit [Externals] in
/-- Fewer waiting and queued requests have fewer unresolved records. -/
theorem unresolved_mono (hsub : ∀ pending, pending ∈ t.built ∨ pending ∈ t.queued →
    pending ∈ s.built ∨ pending ∈ s.queued) :
    ∀ record ∈ t.unresolved, record ∈ s.unresolved := by
  intro record hrecord
  obtain ⟨pending, hpending, heq⟩ := mem_unresolved.mp hrecord
  exact mem_unresolved.mpr ⟨pending, hsub pending hpending, heq⟩

theorem Sound.build (hsound : Sound s past onWire buffered) {request : Request}
    (hfits : Fits s (.build request)) (hclear : Clear s (.build request)) :
    Sound (s.build request) past onWire buffered := by
  obtain ⟨hframe, hcursors⟩ := hfits
  obtain ⟨hships, hkey, hring⟩ :=
    wrapShm_ships s.client s.ring request.msgType request.id request.payload
  set pending : Pending := ⟨request, (requestFrame s.client s.ring request.msgType request.id
    request.payload).1, recordOffset s.ring request.payload⟩ with hpending
  have hready : pending.Ready s.client.cipherKey := ⟨payloadLen_wrapShm, hframe, hships⟩
  have hbuilt : (s.build request).built = s.built ++ [pending] := rfl
  have hqueued : (s.build request).queued = s.queued := rfl
  have hmem : ∀ other, other ∈ (s.build request).built ∨ other ∈ (s.build request).queued →
      (other ∈ s.built ∨ other ∈ s.queued) ∨ other = pending := by
    intro other hother
    rw [hbuilt, hqueued, List.mem_append, List.mem_singleton] at hother
    tauto
  have hunresolved : ∀ record ∈ (s.build request).unresolved,
      record ∈ s.unresolved ∨ pending.record = some record := by
    intro record hrecord
    obtain ⟨other, hother, heq⟩ := mem_unresolved.mp hrecord
    rcases hmem other hother with hold | rfl
    · exact .inl (mem_unresolved.mpr ⟨other, hold, heq⟩)
    · exact .inr heq
  have hringEq : (s.build request).ring =
      (wrapShm s.client s.ring request.msgType request.id request.payload).2.2 := rfl
  refine ⟨?_, hsound.queued_eq, hsound.wire_eq, hsound.out_eq, ?_, ?_, ?_, ?_, hsound.sent_eq,
    hsound.dispatched_eq, ?_, ?_, hsound.failed_large⟩
  · exact hsound.sameKey.trans hkey.symm
  · intro other hother
    have hkey' : (s.build request).client.cipherKey = s.client.cipherKey := hkey
    rw [hkey']
    rcases hmem other (List.mem_append.mp hother) with hold | rfl
    · exact hsound.ready other (List.mem_append.mpr hold)
    · exact hready
  · intro ring' hring'
    rw [hringEq] at hring'
    rcases hring with ⟨_, hsame⟩ | ⟨ring, pos, hs, _, _, hafter⟩
    · exact hsound.cap_le ring' (hsame.symm.trans hring')
    · obtain rfl := Option.some.inj (hafter.symm.trans hring')
      exact (ShmRing.cap_tryWrite ring _).trans_le (hsound.cap_le ring hs)
  · intro ring' hring'
    rw [hringEq] at hring'
    rcases hring with ⟨hnone, hsame⟩ | ⟨ring, pos, hs, hoffset, hwrite, hafter⟩
    · refine (hsound.keeps ring' (hsame.symm.trans hring')).mono fun record hrecord => ?_
      rcases hunresolved record hrecord with hold | hnew
      · exact hold
      · rw [hpending, Pending.record, hnone] at hnew
        cases hnew
    · obtain rfl := Option.some.inj (hafter.symm.trans hring')
      have hkeeps := hsound.keeps ring hs
      obtain ⟨_, _, hlarge, _⟩ := recordOffset_eq_some hoffset
      have hfit := (hcursors ring hs hlarge).cursorFits hwrite
      obtain ⟨hpos, _, _, hroom, _⟩ := ShmRing.tryWrite_some hfit hkeeps.tail_le_head hwrite
      refine hkeeps.write hfit hwrite ?_ fun record hrecord => ?_
      · rw [hpos]
        exact hclear ring hs hlarge (hpos ▸ hroom)
      · rcases hunresolved record hrecord with hold | hnew
        · exact .inl hold
        · rw [hpending, Pending.record, hoffset] at hnew
          exact .inr (Option.some.inj hnew).symm
  · intro hnoRing
    rw [hringEq] at hnoRing
    rcases hring with ⟨hnone, hsame⟩ | ⟨_, _, _, _, _, hafter⟩
    · refine List.eq_nil_iff_forall_not_mem.mpr fun record hrecord => ?_
      rcases hunresolved record hrecord with hold | hnew
      · rw [hsound.ringless (hsame.symm.trans hnoRing)] at hold
        cases hold
      · rw [hpending, Pending.record, hnone] at hnew
        cases hnew
    · rw [hafter] at hnoRing
      cases hnoRing
  · intro other hother
    rw [hbuilt, List.mem_append, List.mem_singleton] at hother
    rcases hother with hold | rfl
    · exact List.mem_append_left _ (hsound.passed other hold)
    · exact List.mem_append_right _ (List.mem_singleton_self _)
  · exact fun other hother => List.mem_append_left _ (hsound.sent_passed other hother)

/-- Steps that move requests from one list to the next. -/
theorem Sound.rearrange (hsound : Sound s past onWire buffered) {onWire' buffered' : List Pending}
    (hsame : t = { s with
      built := t.built, queued := t.queued, out := t.out, wire := t.wire, sent := t.sent })
    (hbuilt : ∀ pending ∈ t.built, pending ∈ s.built)
    (hmem : ∀ pending ∈ t.queued, pending ∈ s.built ∨ pending ∈ s.queued)
    (hqueued : t.queued = onWire' ++ buffered')
    (hwire : t.wire = Frame.encodeAll (onWire'.map Pending.frame))
    (hout : t.out = Frame.encodeAll (buffered'.map Pending.frame))
    (hsent : t.sent = past ++ t.queued.map Pending.request)
    (hsentPassed : ∀ request ∈ t.sent, request ∈ s.passed) :
    Sound t past onWire' buffered' := by
  have hclient : t.client = s.client := by rw [hsame]
  have hserver : t.server = s.server := by rw [hsame]
  have hring : t.ring = s.ring := by rw [hsame]
  have hpassed : t.passed = s.passed := by rw [hsame]
  have hdispatched : t.dispatched = s.dispatched := by rw [hsame]
  have hfailed : t.failed = s.failed := by rw [hsame]
  have hall : ∀ pending, pending ∈ t.built ∨ pending ∈ t.queued →
      pending ∈ s.built ∨ pending ∈ s.queued :=
    fun pending h => h.elim (fun h => .inl (hbuilt pending h)) (hmem pending)
  refine ⟨?_, hqueued, hwire, hout, ?_, ?_, ?_, ?_, hsent,
    hdispatched.trans hsound.dispatched_eq, ?_, ?_, by rw [hfailed]; exact hsound.failed_large⟩
  · rw [hclient, hserver, hsound.sameKey]
  · intro pending hpending
    rw [hclient]
    exact hsound.ready pending (List.mem_append.mpr (hall pending (List.mem_append.mp hpending)))
  · rw [hring]
    exact hsound.cap_le
  · rw [hring]
    exact fun ring h => (hsound.keeps ring h).mono (unresolved_mono hall)
  · rw [hring]
    intro h
    refine List.eq_nil_iff_forall_not_mem.mpr fun record hrecord => ?_
    have hold := unresolved_mono hall record hrecord
    rw [hsound.ringless h] at hold
    cases hold
  · rw [hpassed]
    exact fun pending hpending => hsound.passed pending (hbuilt pending hpending)
  · rw [hpassed]
    exact hsentPassed

theorem Sound.queue (hsound : Sound s past onWire buffered) {i : Nat} {pending : Pending}
    (hpending : s.built[i]? = some pending) :
    Sound (s.queue i pending) past onWire (buffered ++ [pending]) := by
  have hmem : pending ∈ s.built := List.mem_of_getElem? hpending
  refine hsound.rearrange rfl (fun _ hother => List.mem_of_mem_eraseIdx hother) ?_ ?_
    hsound.wire_eq ?_ ?_ ?_
  · intro other hother
    rcases List.mem_append.mp hother with hold | hnew
    · exact .inr hold
    · rw [List.mem_singleton.mp hnew]
      exact .inl hmem
  · show s.queued ++ [pending] = _
    rw [hsound.queued_eq, List.append_assoc]
  · show s.out ++ pending.frame.encode = _
    rw [hsound.out_eq, List.map_append, Frame.encodeAll_append]
    exact congrArg _ (List.append_nil _).symm
  · show s.sent ++ [pending.request] = past ++ (s.queued ++ [pending]).map Pending.request
    rw [hsound.sent_eq, List.map_append, List.append_assoc]
    rfl
  · intro request hrequest
    rcases List.mem_append.mp hrequest with hold | hnew
    · exact hsound.sent_passed request hold
    · rw [List.mem_singleton.mp hnew]
      exact hsound.passed pending hmem

theorem Sound.abandon (hsound : Sound s past onWire buffered) (i : Nat) :
    Sound { s with built := s.built.eraseIdx i } past onWire buffered :=
  hsound.rearrange rfl (fun _ hother => List.mem_of_mem_eraseIdx hother) (fun _ hother => .inr hother)
    hsound.queued_eq hsound.wire_eq hsound.out_eq hsound.sent_eq hsound.sent_passed

theorem Sound.flush (hsound : Sound s past onWire buffered) :
    Sound { s with wire := s.wire ++ s.out, out := [] } past (onWire ++ buffered) [] := by
  refine hsound.rearrange rfl (fun _ hother => hother) (fun _ hother => .inr hother) ?_ ?_ rfl
    hsound.sent_eq hsound.sent_passed
  · rw [List.append_nil]
    exact hsound.queued_eq
  · show s.wire ++ s.out = _
    rw [hsound.wire_eq, hsound.out_eq, List.map_append, Frame.encodeAll_append]

/-- A frame that resolves and unwraps is dispatched. -/
theorem take_eq (request : Request) {now : Nat} {frame resolved : Frame} {rest : Bytes}
    {ring : Option ShmRing} (hresolve : resolveRef uplinkErrors s.ring frame = (.ok resolved, ring))
    (htype : resolved.header.msgType = request.msgType)
    (hid : resolved.header.requestId = request.id)
    (hunwrap : s.server.unwrap now resolved = (.ok request.payload, s.server)) :
    s.take now frame rest = { s with
      queued := s.queued.tail
      wire := rest
      ring := ring
      dispatched := s.dispatched ++ [dispatchedAs request] } := by
  simp only [State.take, hresolve, hunwrap, htype, hid]
  rfl

/-- What a frame that is taken leaves behind. -/
theorem Sound.taken {pending : Pending} (hsound : Sound s past (pending :: onWire) buffered)
    {ring : Option ShmRing} (hcap : ∀ new, ring = some new → new.cap ≤ maxShmCap)
    (hkeeps : ∀ new, ring = some new → ∀ records : List ShmRing.Record,
      (∀ record ∈ records, record ∈ s.unresolved) → new.Keeps records)
    (hringless : ring = none → s.ring = none) :
    Sound { s with
      queued := s.queued.tail
      wire := Frame.encodeAll (onWire.map Pending.frame)
      ring := ring
      dispatched := s.dispatched ++ [dispatchedAs pending.request] }
      (past ++ [pending.request]) onWire buffered := by
  have hqueued : s.queued = pending :: (onWire ++ buffered) := hsound.queued_eq
  have htail : s.queued.tail = onWire ++ buffered := by rw [hqueued, List.tail_cons]
  have hunresolved : ∀ record ∈ ({ s with
      queued := s.queued.tail
      wire := Frame.encodeAll (onWire.map Pending.frame)
      ring := ring
      dispatched := s.dispatched ++ [dispatchedAs pending.request] } : State).unresolved,
      record ∈ s.unresolved :=
    unresolved_mono fun other hother => hother.imp_right List.mem_of_mem_tail
  refine ⟨hsound.sameKey, htail, rfl, hsound.out_eq, ?_, hcap, ?_, ?_, ?_, ?_, hsound.passed,
    hsound.sent_passed, hsound.failed_large⟩
  · intro other hother
    refine hsound.ready other (List.mem_append.mpr ?_)
    exact (List.mem_append.mp hother).imp_right List.mem_of_mem_tail
  · exact fun new hnew => hkeeps new hnew _ hunresolved
  · intro hnone
    refine List.eq_nil_iff_forall_not_mem.mpr fun record hrecord => ?_
    have hold := hunresolved record hrecord
    rw [hsound.ringless (hringless hnone)] at hold
    cases hold
  · show s.sent = _
    rw [hsound.sent_eq, htail, hqueued, List.map_cons, List.append_assoc]
    rfl
  · show s.dispatched ++ _ = _
    rw [hsound.dispatched_eq, List.map_append]
    rfl

/-- The server takes the first frame on the wire, and dispatches what its task passed. -/
theorem Sound.receive (hx : Externals.Lossless) {pending : Pending}
    (hsound : Sound s past (pending :: onWire) buffered) (now : Nat)
    (hlen : pending.frame.payload.length ≤ maxFrameLen) :
    Frame.decode s.wire =
        (.ok (some pending.frame), Frame.encodeAll (onWire.map Pending.frame)) ∧
      Sound (s.take now pending.frame (Frame.encodeAll (onWire.map Pending.frame)))
        (past ++ [pending.request]) onWire buffered := by
  have hqueued : pending ∈ s.queued := by
    rw [hsound.queued_eq]
    exact List.mem_cons_self
  obtain ⟨hpayloadLen, _, hships⟩ := hsound.ready pending (List.mem_append_right _ hqueued)
  refine ⟨?_, ?_⟩
  · rw [hsound.wire_eq, List.map_cons, Frame.encodeAll_cons,
      Frame.decode_encode_append ⟨hpayloadLen, hlen⟩]
  rw [← hsound.sameKey] at hships
  cases hoffset : pending.offset with
  | none =>
      rw [hoffset] at hships
      obtain ⟨htype, hid, hresolve, hunwrap⟩ := Inline.receive s.ring uplinkErrors hx hships now
      rw [take_eq pending.request hresolve htype hid hunwrap]
      exact hsound.taken hsound.cap_le (fun ring hring _ => (hsound.keeps ring hring).mono) id
  | some offset =>
      rw [hoffset] at hships
      have hrecord : ⟨offset, pending.request.payload⟩ ∈ s.unresolved := by
        refine mem_unresolved.mpr ⟨pending, .inr hqueued, ?_⟩
        rw [Pending.record, hoffset, Option.map_some]
      cases hring : s.ring with
      | none =>
          rw [hsound.ringless hring] at hrecord
          cases hrecord
      | some ring =>
          have hkeeps := hsound.keeps ring hring
          have hcap := hsound.cap_le ring hring
          have hholds := hkeeps.holds _ hrecord
          have hlen : pending.request.payload.length < 2 ^ 32 := by
            have hfit : offset % ring.cap + pending.request.payload.length ≤ ring.cap :=
              hholds.contiguous
            exact lt_of_le_of_lt (le_trans (by omega) hcap) (by decide)
          have hlt : offset < 2 ^ 64 := by
            have hstop : offset + pending.request.payload.length ≤ ring.head := hholds.stop_le
            have hhead := hkeeps.head_lt
            omega
          have hread := (hkeeps.read hrecord fun _ h => h).1
          obtain ⟨resolved, hresolve, htype, hid, _, _, hunwrap⟩ :=
            Refers.receive s.server uplinkErrors hlt hlen hships hread now
          rw [← hring] at hresolve
          rw [take_eq pending.request hresolve htype hid hunwrap]
          refine hsound.taken ?_ ?_ fun hnone => absurd hnone (Option.some_ne_none _)
          · intro new hnew
            obtain rfl := Option.some.inj hnew
            exact hcap
          · intro new hnew records hsub
            obtain rfl := Option.some.inj hnew
            exact (hkeeps.read hrecord hsub).2

/-- A frame over the limit ends the session and is not dispatched. -/
theorem Sound.refuse {pending : Pending} (hsound : Sound s past (pending :: onWire) buffered)
    (hlarge : maxFrameLen < pending.frame.payload.length) :
    Frame.decode s.wire = (.error (.frameTooLarge pending.frame.payload.length), s.wire) ∧
      Sound { s with failed := some (.core (.frameTooLarge pending.frame.payload.length)) } past
        (pending :: onWire) buffered := by
  have hqueued : pending ∈ s.queued := by
    rw [hsound.queued_eq]
    exact List.mem_cons_self
  have hready := hsound.ready pending (List.mem_append_right _ hqueued)
  refine ⟨?_, hsound.sameKey, hsound.queued_eq, hsound.wire_eq, hsound.out_eq, hsound.ready,
    hsound.cap_le, hsound.keeps, hsound.ringless, hsound.sent_eq, hsound.dispatched_eq,
    hsound.passed, hsound.sent_passed, ?_⟩
  · rw [hsound.wire_eq, List.map_cons, Frame.encodeAll_cons,
      Frame.decode_of_too_large hlarge hready.length_lt]
  · intro failure hfailure
    exact ⟨_, (Option.some.inj hfailure).symm⟩

theorem sound_step (hx : Externals.Lossless) (op : Op)
    (hsound : ∃ past onWire buffered, Sound s past onWire buffered)
    (hmeets : Fits s op ∧ Clear s op) (hstep : step s op = some t) :
    ∃ past onWire buffered, Sound t past onWire buffered := by
  obtain ⟨past, onWire, buffered, hsound⟩ := hsound
  cases op with
  | build request =>
      obtain rfl := Option.some.inj hstep
      exact ⟨_, _, _, hsound.build hmeets.1 hmeets.2⟩
  | queue i =>
      obtain ⟨pending, hpending, rfl⟩ := Option.map_eq_some_iff.mp hstep
      exact ⟨_, _, _, hsound.queue hpending⟩
  | abandon i =>
      obtain rfl := Option.some.inj hstep
      exact ⟨_, _, _, hsound.abandon i⟩
  | flush =>
      obtain rfl := Option.some.inj hstep
      exact ⟨_, _, _, hsound.flush⟩
  | receive now =>
      rw [step] at hstep
      by_cases hfailed : s.failed.isSome = true
      · rw [if_pos hfailed] at hstep
        cases hstep
      rw [if_neg hfailed] at hstep
      rcases onWire with _ | ⟨pending, onWire⟩
      · rw [hsound.wire_eq] at hstep
        cases hstep
      by_cases hlen : pending.frame.payload.length ≤ maxFrameLen
      · obtain ⟨hdecode, htaken⟩ := hsound.receive hx now hlen
        rw [hdecode] at hstep
        obtain rfl := Option.some.inj hstep
        exact ⟨_, _, _, htaken⟩
      · obtain ⟨hdecode, hrefused⟩ := hsound.refuse (Nat.lt_of_not_le hlen)
        rw [hdecode] at hstep
        obtain rfl := Option.some.inj hstep
        exact ⟨_, _, _, hrefused⟩

end Steps

/-- **Uplink payloads.** When every record goes to cells that no unresolved reference needs, the
server dispatches, in the order of the frames, exactly the payloads the tasks passed, and the session
ends by nothing but a frame over the limit; however the tasks, the writer and the server
interleave. -/
theorem payloads_kept (hx : Externals.Lossless) {client server : PayloadPipeline}
    (hkey : client.SameKey server) {cap : Nat} (hcap : 0 < cap) (hle : cap ≤ maxShmCap)
    {ops : List Op} {s : State}
    (hrun : Run step (fun s op => Fits s op ∧ Clear s op)
      (init client server (some (.create cap hcap))) ops s) :
    (∀ failure, s.failed = some failure → ∃ len, failure = .core (.frameTooLarge len)) ∧
      (∀ request ∈ s.sent, request ∈ s.passed) ∧
      s.dispatched = (s.sent.take s.dispatched.length).map dispatchedAs := by
  obtain ⟨past, onWire, buffered, hsound⟩ :
      ∃ past onWire buffered, Sound s past onWire buffered :=
    hrun.invariant (p := fun s => ∃ past onWire buffered, Sound s past onWire buffered)
      (fun _ op _ hsound hmeets hstep => sound_step hx op hsound hmeets hstep)
      ⟨[], [], [], sound_init hkey hcap hle⟩
  refine ⟨hsound.failed_large, hsound.sent_passed, ?_⟩
  have hlength : s.dispatched.length = past.length := by
    rw [hsound.dispatched_eq, List.length_map]
  rw [hlength, hsound.sent_eq, List.take_left]
  exact hsound.dispatched_eq

/-! ### Requests through the ring -/

section Recorded

variable {s : State} {ring : ShmRing} {request : Request} {pos : Nat}

/-- The request after its record is written. -/
def recordedPending (request : Request) (pos : Nat) : Pending where
  request := request
  frame := shmRefFrame request.msgType request.id pos (Frame.lenU32 request.payload)
  offset := some pos

def recorded (s : State) (ring : ShmRing) (request : Request) (pos : Nat) : State :=
  { s with
    ring := some (ring.written pos request.payload)
    built := s.built ++ [recordedPending request pos]
    passed := s.passed ++ [request] }

theorem build_recorded (hring : s.ring = some ring) (hlarge : shmThreshold ≤ request.payload.length)
    (hwrite : ring.tryWrite request.payload = (some pos, ring.written pos request.payload))
    (hcursors : ring.CursorFits request.payload.length) :
    step s (.build request) = some (recorded s ring request pos) ∧ Fits s (.build request) := by
  have hfirst : (ring.tryWrite request.payload).1 = some pos := by rw [hwrite]
  have hframe : requestFrame s.client s.ring request.msgType request.id request.payload =
      (shmRefFrame request.msgType request.id pos (Frame.lenU32 request.payload), s.client,
        some (ring.written pos request.payload)) := by
    rw [requestFrame, hring, wrapShm_of_write _ _ _ hlarge hfirst, hwrite]
  have hoffset : recordOffset s.ring request.payload = some pos := by
    rw [recordOffset, hring, Option.bind_some, if_pos hlarge, hfirst]
  refine ⟨?_, ?_, ?_⟩
  · rw [step, State.build, hframe, hoffset]
    rfl
  · rw [hframe]
    exact lt_of_le_of_lt (wellFormed_shmRefFrame _ _ _ _).length_le (by decide)
  · intro other hother _
    obtain rfl := Option.some.inj (hring.symm.trans hother)
    exact fun _ => hcursors

/-- The server takes the only reference on the wire, and gets what lies at its offset. -/
theorem receive_recorded {body : Bytes} (hring : s.ring = some ring) (hfailed : s.failed = none)
    (hwire : s.wire = (recordedPending request pos).frame.encode)
    (hsame : body.length = request.payload.length)
    (hholds : ring.Holds ⟨pos, body⟩) (hhead : ring.head < 2 ^ 32) :
    step s (.receive 0) = some { s with
      queued := s.queued.tail
      wire := []
      ring := some { ring with tail := pos + body.length }
      dispatched := s.dispatched ++ [(request.msgType, request.id, body)] } := by
  have hdecode : Frame.decode s.wire = (.ok (some (recordedPending request pos).frame), []) := by
    rw [hwire]
    exact Frame.decode_encode (wellFormed_shmRefFrame _ _ _ _)
  have hlen : Frame.lenU32 request.payload = Frame.lenU32 body := by
    rw [Frame.lenU32, Frame.lenU32, hsame]
  have href : Refers pos request.msgType request.id body (recordedPending request pos).frame := by
    rw [recordedPending, hlen]
    exact refers_shmRefFrame _ _ _ _
  have hstop : pos + body.length ≤ ring.head := hholds.stop_le
  have hread := ShmRing.readRelease_of_holds hholds (by omega)
  obtain ⟨resolved, hresolve, htype, hid, _, _, hunwrap⟩ :=
    Refers.receive s.server uplinkErrors (by omega) (by omega) href hread 0
  rw [← hring] at hresolve
  rw [step, if_neg (by rw [hfailed]; exact Bool.false_ne_true), hdecode]
  exact congrArg some
    (take_eq ⟨request.id, request.msgType, body⟩ hresolve htype hid hunwrap)

section Laps

variable {first second : Bytes}

variable (ring first second)

omit [Externals] in
/-- Two records fill a lap. -/
theorem write_lap (hhead : ring.head = 0) (htail : ring.tail = 0) (hle : ring.cap ≤ maxShmCap)
    (hfirst : 0 < first.length) (hsecond : 0 < second.length)
    (hfill : first.length + second.length = ring.cap) :
    (ring.CursorFits first.length ∧ ring.tryWrite first = (some 0, ring.written 0 first)) ∧
      ((ring.written 0 first).CursorFits second.length ∧
        (ring.written 0 first).tryWrite second =
          (some first.length, (ring.written 0 first).written first.length second)) ∧
      ((ring.written 0 first).written first.length second).Holds ⟨first.length, second⟩ ∧
      ((ring.written 0 first).written first.length second).head = ring.cap := by
  have hmax : maxShmCap = 2 ^ 26 := by decide
  have hhead' : (ring.written 0 first).head = first.length := by
    rw [ShmRing.head_written (by omega), Nat.zero_add]
  have hfit : nextFit ring.cap ring.head first.length = 0 := by
    rw [nextFit, hhead, Nat.zero_mod, if_neg (by omega)]
  have hfit' : nextFit (ring.written 0 first).cap (ring.written 0 first).head second.length =
      first.length := by
    rw [nextFit, hhead', ShmRing.cap_written, Nat.mod_eq_of_lt (by omega), if_neg (by omega)]
  refine ⟨ShmRing.tryWrite_of_room hfit hfirst (by omega) (by omega) (by omega) (by omega), ?_, ?_,
    ?_⟩
  · refine ShmRing.tryWrite_of_room hfit' hsecond ?_ ?_ (by omega) ?_
    · rw [ShmRing.cap_written]
      omega
    · rw [ShmRing.cap_written, ShmRing.tail_written]
      omega
    · rw [ShmRing.tail_written, hhead']
      omega
  · refine ShmRing.holds_written hsecond ?_ (by omega)
    rw [Contiguous, ShmRing.cap_written, Nat.mod_eq_of_lt (by omega), hfill]
  · rw [ShmRing.head_written (by omega), hfill]

end Laps

/-- Two requests build their frames, and the second one gets the writer first. -/
def crossingOps (first second : Request) : List Op :=
  [.build first, .build second, .queue 1, .flush, .receive 0, .queue 0, .flush, .receive 0]

/-- Two records that fill the ring are apart, and the server takes their references in the other
order. -/
theorem crossing_run (first second : Request) (cap : Nat) (hcap : 0 < cap) (hle : cap ≤ maxShmCap)
    (hfirst : shmThreshold ≤ first.payload.length) (hsecond : shmThreshold ≤ second.payload.length)
    (hfill : first.payload.length + second.payload.length = cap) (client server : PayloadPipeline) :
    ∃ s, Run step (fun s op => Fits s op ∧ Clear s op)
        (init client server (some (.create cap hcap))) (crossingOps first second) s ∧
      s.failed = none ∧ s.sent = [second, first] ∧ s.dispatched.length = 2 := by
  have hpos : 0 < shmThreshold := by decide
  have hmax : maxShmCap = 2 ^ 26 := by decide
  set ring₀ := ShmRing.create cap hcap with hring₀
  have hcap₀ : ring₀.cap = cap := rfl
  obtain ⟨⟨hcursors₀, hwrite₀⟩, ⟨hcursors₁, hwrite₁⟩, hholds₂, hhead₂⟩ :=
    write_lap ring₀ first.payload second.payload rfl rfl hle (hpos.trans_le hfirst)
      (hpos.trans_le hsecond) hfill
  set ring₁ := ring₀.written 0 first.payload with hring₁
  have hhead₁ : ring₁.head = first.payload.length := by
    rw [hring₁, ShmRing.head_written (by omega), Nat.zero_add]
  have hholds₁ : ring₁.Holds ⟨0, first.payload⟩ :=
    ShmRing.holds_written (by omega) (by rw [Contiguous, Nat.zero_mod]; omega) (by omega)
  have hapart : Apart ring₁.cap first.payload.length second.payload.length 0
      first.payload.length := by
    refine .inr ?_
    rw [hring₁, ShmRing.cap_written, Nat.zero_mod, Nat.zero_add, Nat.mod_eq_of_lt (by omega)]
  obtain ⟨hbuild₀, hfits₀⟩ := build_recorded (s := init client server (some ring₀)) rfl hfirst
    hwrite₀ hcursors₀
  set s₁ := recorded (init client server (some ring₀)) ring₀ first 0 with hs₁
  obtain ⟨hbuild₁, hfits₁⟩ := build_recorded (s := s₁) rfl hsecond hwrite₁ hcursors₁
  have hclear₁ : Clear s₁ (.build second) := by
    intro ring hring _ pos _ record hrecord
    obtain rfl := Option.some.inj hring
    obtain rfl := List.mem_singleton.mp hrecord
    have hat : pos = first.payload.length :=
      (ShmRing.tryWrite_some hcursors₁ (Nat.zero_le _) (congrArg Prod.fst hwrite₁)).1.symm
    rw [hat]
    exact hapart
  set s₂ := recorded s₁ ring₁ second first.payload.length with hs₂
  set ring₂ := ring₁.written first.payload.length second.payload
  have hkept : ring₂.Holds ⟨0, first.payload⟩ := hholds₁.written hhead₁.le (by omega) hapart
  set s₃ := s₂.queue 1 (recordedPending second first.payload.length) with hs₃
  set s₄ : State := { s₃ with wire := s₃.wire ++ s₃.out, out := [] } with hs₄
  have hreceive₄ : step s₄ (.receive 0) = _ :=
    receive_recorded (s := s₄) rfl rfl rfl rfl hholds₂ (lt_of_eq_of_lt hhead₂ (by omega))
  set ring₃ : ShmRing := { ring₂ with tail := first.payload.length + second.payload.length }
  set s₅ : State := { s₄ with
    queued := s₄.queued.tail
    wire := []
    ring := some ring₃
    dispatched := s₄.dispatched ++ [dispatchedAs second] } with hs₅
  set s₆ := s₅.queue 0 (recordedPending first 0) with hs₆
  set s₇ : State := { s₆ with wire := s₆.wire ++ s₆.out, out := [] } with hs₇
  have hreceive₇ : step s₇ (.receive 0) = _ :=
    receive_recorded (s := s₇) rfl rfl rfl rfl (hkept.setTail _)
      (lt_of_eq_of_lt hhead₂ (by omega))
  exact ⟨_, .cons hbuild₀ ⟨hfits₀, fun _ _ _ _ _ hmem => absurd hmem List.not_mem_nil⟩
    (.cons hbuild₁ ⟨hfits₁, hclear₁⟩ (.cons rfl ⟨trivial, trivial⟩ (.cons rfl ⟨trivial, trivial⟩
      (.cons hreceive₄ ⟨trivial, trivial⟩ (.cons rfl ⟨trivial, trivial⟩
        (.cons rfl ⟨trivial, trivial⟩ (.cons hreceive₇ ⟨trivial, trivial⟩ (.nil _)))))))),
    rfl, rfl, rfl⟩

omit [Externals] in
/-- Two requests fill a ring of the default size, and their references cross. -/
theorem payloads_kept_crossing :
    letI : Externals := .plain
    let first : Request := ⟨1, .callTool, fill 1 (2 ^ 14)⟩
    let second : Request := ⟨2, .callTool, fill 2 (2 ^ 22 - 2 ^ 14)⟩
    ∃ s, Run step (fun s op => Fits s op ∧ Clear s op)
        (init .new .new (some (.create defaultShmCap defaultShmCap_pos)))
        (crossingOps first second) s ∧
      s.failed = none ∧ s.dispatched = [dispatchedAs second, dispatchedAs first] := by
  let _ : Externals := .plain
  intro first second
  have hfirst : first.payload.length = 2 ^ 14 := length_fill _ _
  have hsecond : second.payload.length = 2 ^ 22 - 2 ^ 14 := length_fill _ _
  have hthreshold : shmThreshold = 2 ^ 14 := rfl
  obtain ⟨s, hrun, hfailed, hsent, hlength⟩ := crossing_run first second defaultShmCap
    defaultShmCap_pos (by decide) (by omega) (by omega) (by rw [hfirst, hsecond]; rfl) .new .new
  obtain ⟨_, _, hdispatched⟩ :=
    payloads_kept Externals.plain_lossless rfl defaultShmCap_pos (by decide) hrun
  rw [hlength, hsent] at hdispatched
  exact ⟨s, hrun, hfailed, hdispatched⟩

end Recorded

/-! ### A reference that comes late -/

section Late

variable (ring : ShmRing) (first : Bytes)

omit [Externals] in
theorem fill_ne {left right : UInt8} (hne : left ≠ right) {len : Nat} (hlen : 0 < len) :
    fill left len ≠ fill right len := by
  intro h
  unfold fill at h
  exact hne (List.replicate_right_injective (Nat.pos_iff_ne_zero.mp hlen) h)

omit [Externals] in
/-- At the end of a lap that is released, a record goes where the first one of the lap was. -/
theorem write_next_lap (hhead : ring.head = ring.cap) (htail : ring.tail = ring.cap)
    (hle : ring.cap ≤ maxShmCap) (hfirst : 0 < first.length) (hfit : first.length ≤ ring.cap) :
    (ring.CursorFits first.length ∧
        ring.tryWrite first = (some ring.cap, ring.written ring.cap first)) ∧
      (ring.written ring.cap first).Holds ⟨0, first⟩ ∧
      (ring.written ring.cap first).head < 2 ^ 32 := by
  have hmax : maxShmCap = 2 ^ 26 := by decide
  have hlt : ring.cap + first.length < 2 ^ 32 := by omega
  have hpos : nextFit ring.cap ring.head first.length = ring.cap := by
    rw [nextFit, hhead, Nat.mod_self, if_neg (by omega)]
  have hhead' : (ring.written ring.cap first).head = ring.cap + first.length :=
    ShmRing.head_written (by omega)
  have hholds : (ring.written ring.cap first).Holds ⟨ring.cap, first⟩ := by
    refine ShmRing.holds_written hfirst ?_ (by omega)
    rw [Contiguous, Nat.mod_self]
    omega
  -- one lap apart, both offsets have the same cells
  have hbytes := hholds.bytes
  rw [ShmRing.cap_written, Nat.mod_self] at hbytes
  refine ⟨ShmRing.tryWrite_of_room hpos hfirst hfit (by omega) (by omega) (by omega),
    ⟨hfirst, ?_, ?_, ?_⟩, by omega⟩
  · show 0 % ring.cap + first.length ≤ ring.cap
    rw [Nat.zero_mod]
    omega
  · show 0 + first.length ≤ (ring.written ring.cap first).head
    omega
  · rw [ShmRing.cap_written, Nat.zero_mod]
    exact hbytes

end Late

/-- The second request gets the writer before the first; the third writes its record where the
first, whose reference is still to come, has its own. -/
def lateOps (early filling later : Request) : List Op :=
  [.build early, .build filling, .queue 1, .flush, .receive 0, .build later, .queue 0, .flush,
    .receive 0]

/-- The server dispatches the payload of the third request under the id of the first. -/
theorem late_run (early filling later : Request) (cap : Nat) (hcap : 0 < cap)
    (hle : cap ≤ maxShmCap) (hearly : shmThreshold ≤ early.payload.length)
    (hfilling : early.payload.length + filling.payload.length = cap)
    (hlarge : shmThreshold ≤ filling.payload.length)
    (hlater : later.payload.length = early.payload.length) (client server : PayloadPipeline) :
    ∃ s, Run step Fits (init client server (some (.create cap hcap)))
        (lateOps early filling later) s ∧
      s.dispatched = [dispatchedAs filling, (early.msgType, early.id, later.payload)] ∧
      s.passed = [early, filling, later] := by
  have hpos : 0 < shmThreshold := by decide
  have hmax : maxShmCap = 2 ^ 26 := by decide
  set ring₀ := ShmRing.create cap hcap with hring₀
  have hcap₀ : ring₀.cap = cap := rfl
  obtain ⟨⟨hcursors₀, hwrite₀⟩, ⟨hcursors₁, hwrite₁⟩, hholds₂, hhead₂⟩ :=
    write_lap ring₀ early.payload filling.payload rfl rfl hle (hpos.trans_le hearly)
      (hpos.trans_le hlarge) hfilling
  obtain ⟨hbuild₀, hfits₀⟩ := build_recorded (s := init client server (some ring₀)) rfl hearly
    hwrite₀ hcursors₀
  set s₁ := recorded (init client server (some ring₀)) ring₀ early 0 with hs₁
  obtain ⟨hbuild₁, hfits₁⟩ := build_recorded (s := s₁) rfl hlarge hwrite₁ hcursors₁
  set s₂ := recorded s₁ _ filling early.payload.length with hs₂
  set ring₂ := (ring₀.written 0 early.payload).written early.payload.length filling.payload
  set s₃ := s₂.queue 1 (recordedPending filling early.payload.length) with hs₃
  have hqueue₃ : step s₂ (.queue 1) = some s₃ := rfl
  set s₄ : State := { s₃ with wire := s₃.wire ++ s₃.out, out := [] } with hs₄
  have hreceive₄ : step s₄ (.receive 0) = _ :=
    receive_recorded (s := s₄) rfl rfl rfl rfl hholds₂ (lt_of_eq_of_lt hhead₂ (by omega))
  set ring₃ : ShmRing := { ring₂ with tail := early.payload.length + filling.payload.length }
  obtain ⟨⟨hcursors₃, hwrite₃⟩, hholds₆, hhead₆⟩ :=
    write_next_lap ring₃ later.payload hhead₂ hfilling hle (by omega)
      (by change later.payload.length ≤ cap; omega)
  set s₅ : State := { s₄ with
    queued := s₄.queued.tail
    wire := []
    ring := some ring₃
    dispatched := s₄.dispatched ++ [dispatchedAs filling] } with hs₅
  obtain ⟨hbuild₅, hfits₅⟩ := build_recorded (s := s₅) rfl (by omega) hwrite₃ hcursors₃
  set s₆ := recorded s₅ ring₃ later ring₃.cap with hs₆
  set s₇ := s₆.queue 0 (recordedPending early 0) with hs₇
  set s₈ : State := { s₇ with wire := s₇.wire ++ s₇.out, out := [] } with hs₈
  have hreceive₈ : step s₈ (.receive 0) = _ :=
    receive_recorded (s := s₈) rfl rfl rfl hlater hholds₆ hhead₆
  exact ⟨_, .cons hbuild₀ hfits₀ (.cons hbuild₁ hfits₁ (.cons rfl trivial (.cons rfl trivial
    (.cons hreceive₄ trivial (.cons hbuild₅ hfits₅ (.cons rfl trivial (.cons rfl trivial
      (.cons hreceive₈ trivial (.nil _))))))))), rfl, rfl⟩

omit [Externals] in
/-- A full-size ring and three payloads. -/
theorem late_reference_misread :
    letI : Externals := .plain
    let early : Request := ⟨1, .callTool, fill 0 (2 ^ 14)⟩
    let filling : Request := ⟨2, .callTool, fill 1 (2 ^ 22 - 2 ^ 14)⟩
    let later : Request := ⟨3, .callTool, fill 2 (2 ^ 14)⟩
    ∃ s, Run step Fits (init .new .new (some (.create defaultShmCap defaultShmCap_pos)))
        (lateOps early filling later) s ∧
      s.dispatched = [dispatchedAs filling, (.callTool, 1, later.payload)] ∧
      s.passed = [early, filling, later] ∧ later.payload ≠ early.payload := by
  let _ : Externals := .plain
  intro early filling later
  have hearly : early.payload.length = 2 ^ 14 := length_fill _ _
  have hfilling : filling.payload.length = 2 ^ 22 - 2 ^ 14 := length_fill _ _
  have hlater : later.payload.length = 2 ^ 14 := length_fill _ _
  have hthreshold : shmThreshold = 2 ^ 14 := rfl
  obtain ⟨s, hrun, hdispatched, hpassed⟩ := late_run early filling later defaultShmCap
    defaultShmCap_pos (by decide) (by omega) (by rw [hearly, hfilling]; rfl) (by omega) (by omega) .new .new
  exact ⟨s, hrun, hdispatched, hpassed, fill_ne (by decide) (by decide)⟩

end Uplink

end Ohmcp
