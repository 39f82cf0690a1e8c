import Ohmcp.Client
import Ohmcp.Session
import Ohmcp.FrameCodec
import Ohmcp.RingIntegrity

/-! The results of one server session, from `wrap_maybe_shm` through the wire to `unwrap`: whichever
way each of them takes, the client gets the payload that was sent. -/

open Circular Transition

namespace Ohmcp

variable [Externals]

namespace Delivery

/-! ### The system -/

structure State where
  server : PayloadPipeline
  /-- The downlink ring, once it is negotiated. -/
  ring : Option ShmRing
  /-- The bytes on their way to the client. -/
  wire : Bytes
  client : PayloadPipeline
  /-- Ids and payloads, as the server sent them. -/
  sent : List (UInt64 × Bytes)
  /-- What the client got out of the frames. -/
  received : List (Except RequestError (MsgType × UInt64 × Bytes))

inductive Op where
  | attach (cap : Nat) (hcap : 0 < cap)
  | send (id : UInt64) (payload : Bytes) (cacheable : Bool)
  | receive (now : Nat)

omit [Externals] in
def init (server client : PayloadPipeline) : State := ⟨server, none, [], client, [], []⟩

/-- The frame of a result, with `CACHEABLE` set or not. -/
def sentFrame (s : State) (id : UInt64) (payload : Bytes) (cacheable : Bool) : Frame :=
  let frame := (wrapMaybeShm s.server s.ring id payload).1
  if cacheable then markCacheable frame else frame

/-- The client takes one frame. -/
def take (s : State) (now : Nat) (frame : Frame) (rest : Bytes) : State :=
  match resolveShm s.ring frame with
  | (.error e, ring) =>
      { s with ring := ring, wire := rest, received := s.received ++ [.error (.text e)] }
  | (.ok frame, ring) =>
      let (body, client) := s.client.unwrap now frame
      let got := match body with
        | .ok body => .ok (frame.header.msgType, frame.header.requestId, body)
        | .error e => .error (.text e)
      { s with ring := ring, wire := rest, client := client, received := s.received ++ [got] }

def step (s : State) : Op → Option State
  | .attach cap hcap =>
      match s.ring with
      | none => some { s with ring := some (.create cap hcap) }
      | some _ => none
  | .send id payload cacheable =>
      let (_, server, ring) := wrapMaybeShm s.server s.ring id payload
      some { s with
        server := server
        ring := ring
        wire := s.wire ++ (sentFrame s id payload cacheable).encode
        sent := s.sent ++ [(id, payload)] }
  | .receive now =>
      match Frame.decode s.wire with
      | (.ok (some frame), rest) => some (take s now frame rest)
      | (.ok none, _) => none
      | (.error e, rest) =>
          some { s with wire := rest, received := s.received ++ [.error (.core e)] }

/-- The capacity is one both ends accept, and the frame is within the receiver's limit. -/
def FramesFit (s : State) : Op → Prop
  | .attach cap _ => cap ≤ maxShmCap
  | .send id payload _ => (wrapMaybeShm s.server s.ring id payload).1.payload.length ≤ maxFrameLen
  | .receive _ => True

/-- No write into the ring takes its cursors to `2^64`. -/
def CursorsFit (s : State) : Op → Prop
  | .send _ payload _ =>
      ∀ ring, s.ring = some ring → shmThreshold ≤ payload.length → ring.WriteFits payload
  | _ => True

def Fits (s : State) (op : Op) : Prop := FramesFit s op ∧ CursorsFit s op

/-! ### The invariant -/

/-- A frame on its way, and what it ships. -/
structure Parcel where
  frame : Frame
  id : UInt64
  payload : Bytes
  offset : Option Nat

namespace Parcel

omit [Externals] in
def content (parcel : Parcel) : UInt64 × Bytes := (parcel.id, parcel.payload)

omit [Externals] in
def record (parcel : Parcel) : Option ShmRing.Record := parcel.offset.map (⟨·, parcel.payload⟩)

def Ready (key : Option Bytes32) (parcel : Parcel) : Prop :=
  parcel.frame.WellFormed ∧
    Ships key .callToolResult parcel.id parcel.payload parcel.frame parcel.offset

end Parcel

omit [Externals] in
/-- The ring's queue is the records that are referred to on the wire. -/
def RingQueues : Option ShmRing → List ShmRing.Record → Prop
  | none, live => live = []
  | some ring, live => ring.Queue live ∧ ring.cap ≤ maxShmCap

omit [Externals] in
def delivered (content : UInt64 × Bytes) : Except RequestError (MsgType × UInt64 × Bytes) :=
  .ok (.callToolResult, content.1, content.2)

/-- What was sent is what was received, intact, and the parcels on the wire. -/
structure Intact (s : State) (parcels : List Parcel) (past : List (UInt64 × Bytes)) : Prop where
  sameKey : s.client.cipherKey = s.server.cipherKey
  wire_eq : s.wire = Frame.encodeAll (parcels.map Parcel.frame)
  ready : ∀ parcel ∈ parcels, parcel.Ready s.client.cipherKey
  sent_eq : s.sent = past ++ parcels.map Parcel.content
  received_eq : s.received = past.map delivered
  queues : RingQueues s.ring (parcels.filterMap Parcel.record)

theorem intact_init {server client : PayloadPipeline} (hkey : server.SameKey client) :
    Intact (init server client) [] [] :=
  ⟨hkey, rfl, nofun, rfl, rfl, rfl⟩

section Steps

variable {s t : State} {parcels : List Parcel} {past : List (UInt64 × Bytes)}

omit [Externals] in
theorem queues_write {ring : ShmRing} {live : List ShmRing.Record} {payload : Bytes} {pos : Nat}
    (hqueues : RingQueues (some ring) live) (hfits : ring.CursorFits payload.length)
    (hwrite : (ring.tryWrite payload).1 = some pos) :
    RingQueues (some (ring.tryWrite payload).2) (live ++ [⟨pos, payload⟩]) :=
  ⟨hqueues.1.write hfits hwrite, (ShmRing.cap_tryWrite ring payload).trans_le hqueues.2⟩

/-- A result goes on the wire as one more parcel. -/
theorem Intact.send (hintact : Intact s parcels past) {id : UInt64} {payload : Bytes}
    {cacheable : Bool} (hfits : Fits s (.send id payload cacheable))
    (hstep : step s (.send id payload cacheable) = some t) :
    ∃ parcel, Intact t (parcels ++ [parcel]) past := by
  obtain ⟨hships, hkey, hring⟩ := wrapShm_ships s.server s.ring .callToolResult id payload
  obtain ⟨hframe, hcursors⟩ := hfits
  have hlarge : ∀ pos, recordOffset s.ring payload = some pos → shmThreshold ≤ payload.length := by
    intro pos hpos
    obtain ⟨_, _, hlarge, _⟩ := recordOffset_eq_some hpos
    exact hlarge
  generalize recordOffset s.ring payload = offset at hships hring hlarge
  have hwf := wellFormed_wrapShm hframe
  have hready : Parcel.Ready s.client.cipherKey
      ⟨sentFrame s id payload cacheable, id, payload, offset⟩ := by
    rw [hintact.sameKey]
    cases cacheable with
    | false => exact ⟨hwf, hships⟩
    | true => exact ⟨⟨hwf.payloadLen_eq, hwf.length_le⟩, hships.setCacheable⟩
  have ht := (Option.some.inj hstep).symm
  subst ht
  refine ⟨⟨sentFrame s id payload cacheable, id, payload, offset⟩, hintact.sameKey.trans hkey.symm,
    ?_, ?_, ?_, hintact.received_eq, ?_⟩
  · rw [List.map_append, Frame.encodeAll_append, ← hintact.wire_eq]
    exact congrArg _ (List.append_nil _).symm
  · intro parcel hparcel
    rcases List.mem_append.mp hparcel with hold | hnew
    · exact hintact.ready parcel hold
    · rw [List.mem_singleton.mp hnew]
      exact hready
  · rw [List.map_append, ← List.append_assoc, ← hintact.sent_eq]
    rfl
  · rw [List.filterMap_append]
    rcases hring with ⟨hnone, hsame⟩ | ⟨ring, pos, hshm, hpos, hwrite, hafter⟩
    · subst hnone
      change RingQueues (wrapShm s.server s.ring .callToolResult id payload).2.2 _
      rw [hsame, List.filterMap_cons_none rfl, List.filterMap_nil, List.append_nil]
      exact hintact.queues
    · subst hpos
      change RingQueues (wrapShm s.server s.ring .callToolResult id payload).2.2 _
      have hqueues := hintact.queues
      rw [hshm] at hqueues
      rw [hafter]
      have hcursor := (hcursors ring hshm (hlarge pos rfl)).cursorFits hwrite
      exact queues_write hqueues hcursor hwrite

/-- A frame that resolves and unwraps. -/
theorem take_eq {now : Nat} {frame resolved : Frame} {rest : Bytes} {ring : Option ShmRing}
    (content : UInt64 × Bytes) (hresolve : resolveShm s.ring frame = (.ok resolved, ring))
    (htype : resolved.header.msgType = .callToolResult)
    (hid : resolved.header.requestId = content.1)
    (hunwrap : s.client.unwrap now resolved = (.ok content.2, s.client)) :
    take s now frame rest =
      { s with ring := ring, wire := rest, received := s.received ++ [delivered content] } := by
  simp only [take, hresolve, hunwrap, htype, hid]
  rfl

/-- The client takes the first parcel, and gets what it ships. -/
theorem Intact.receive (hx : Externals.Lossless) {parcel : Parcel}
    (hintact : Intact s (parcel :: parcels) past) (now : Nat) :
    Frame.decode s.wire =
        (.ok (some parcel.frame), Frame.encodeAll (parcels.map Parcel.frame)) ∧
      Intact (take s now parcel.frame (Frame.encodeAll (parcels.map Parcel.frame))) parcels
        (past ++ [parcel.content]) := by
  obtain ⟨hwf, hships⟩ := hintact.ready parcel (by simp)
  have hready : ∀ later ∈ parcels, later.Ready s.client.cipherKey :=
    fun later hlater => hintact.ready later (List.mem_cons_of_mem _ hlater)
  have hsent : s.sent = (past ++ [parcel.content]) ++ parcels.map Parcel.content := by
    rw [hintact.sent_eq, List.map_cons, List.append_assoc, List.singleton_append]
  have hreceived : s.received ++ [delivered parcel.content] =
      (past ++ [parcel.content]).map delivered := by
    rw [hintact.received_eq, List.map_append, List.map_singleton]
  refine ⟨?_, ?_⟩
  · rw [hintact.wire_eq, List.map_cons, Frame.encodeAll_cons, Frame.decode_encode_append hwf]
  have hqueues := hintact.queues
  rcases hoffset : parcel.offset with _ | offset
  · rw [hoffset] at hships
    have hnone : parcel.record = none := by rw [Parcel.record, hoffset, Option.map_none]
    rw [List.filterMap_cons_none hnone] at hqueues
    obtain ⟨htype, hid, hresolve, hunwrap⟩ := Inline.receive s.ring downlinkErrors hx hships now
    rw [take_eq parcel.content hresolve htype hid hunwrap]
    exact ⟨hintact.sameKey, rfl, hready, hsent, hreceived, hqueues⟩
  · rw [hoffset] at hships
    have hrecord : parcel.record = some ⟨offset, parcel.payload⟩ := by
      rw [Parcel.record, hoffset, Option.map_some]
    rw [List.filterMap_cons_some hrecord] at hqueues
    rcases hshm : s.ring with _ | ring
    · rw [hshm] at hqueues
      cases hqueues
    rw [hshm] at hqueues
    obtain ⟨hqueue, hcap⟩ := hqueues
    have hmem : ⟨offset, parcel.payload⟩ ∈ (⟨offset, parcel.payload⟩ ::
        parcels.filterMap Parcel.record : List ShmRing.Record) := List.mem_cons_self
    have hholds := hqueue.holds _ hmem
    have hlen : parcel.payload.length < 2 ^ 32 := by
      have hfit := hholds.contiguous
      simp only [Contiguous] at hfit
      exact lt_of_le_of_lt (le_trans (by omega) hcap) (by decide)
    have hlt : offset < 2 ^ 64 := by
      have hstop := hholds.stop_le
      have hhead := hqueue.head_lt
      simp only [ShmRing.Record.stop] at hstop
      omega
    have hread := hqueue.read_eq hmem
    obtain ⟨resolved, hresolve, htype, hid, _, _, hunwrap⟩ :=
      Refers.receive s.client downlinkErrors hlt hlen hships hread now
    rw [← hshm] at hresolve
    rw [take_eq parcel.content hresolve htype hid hunwrap]
    refine ⟨hintact.sameKey, rfl, hready, hsent, hreceived, ?_, hcap⟩
    have hqueue' : ring.Queue ([] ++ ⟨offset, parcel.payload⟩ ::
        parcels.filterMap Parcel.record) := hqueue
    have hrest := hqueue'.read
    rw [hread] at hrest
    exact hrest

theorem Intact.attach (hintact : Intact s parcels past) {cap : Nat} {hcap : 0 < cap}
    (hfits : Fits s (.attach cap hcap)) (hstep : step s (.attach cap hcap) = some t) :
    Intact t parcels past := by
  rw [step] at hstep
  rcases hring : s.ring with _ | ring
  · rw [hring] at hstep
    obtain rfl := Option.some.inj hstep
    have hqueues := hintact.queues
    rw [hring] at hqueues
    refine ⟨hintact.sameKey, hintact.wire_eq, hintact.ready, hintact.sent_eq,
      hintact.received_eq, ?_, hfits.1⟩
    rw [hqueues]
    exact ShmRing.queue_create hcap
  · rw [hring] at hstep
    cases hstep

/-- Every step keeps what was sent intact. -/
theorem intact_step (hx : Externals.Lossless) (op : Op)
    (hintact : ∃ parcels past, Intact s parcels past) (hfits : Fits s op)
    (hstep : step s op = some t) : ∃ parcels past, Intact t parcels past := by
  obtain ⟨parcels, past, hintact⟩ := hintact
  cases op with
  | attach cap hcap => exact ⟨parcels, past, hintact.attach hfits hstep⟩
  | send id payload cacheable =>
      obtain ⟨parcel, hsent⟩ := hintact.send hfits hstep
      exact ⟨_, past, hsent⟩
  | receive now =>
      rcases parcels with _ | ⟨parcel, parcels⟩
      · rw [step, hintact.wire_eq] at hstep
        cases hstep
      · obtain ⟨hdecode, htaken⟩ := hintact.receive hx now
        rw [step, hdecode] at hstep
        obtain rfl := Option.some.inj hstep
        exact ⟨parcels, _, htaken⟩

end Steps

/-- **Delivery.** In every run, the client has got the first of the payloads that were sent, each
exactly as it was sent and under its type and id; and while one is missing the next frame can be
taken. -/
theorem every_way_delivers (hx : Externals.Lossless) {server client : PayloadPipeline}
    (hkey : server.SameKey client) {ops : List Op} {s : State}
    (hrun : Run step Fits (init server client) ops s) :
    s.received = (s.sent.take s.received.length).map delivered ∧
      (s.received.length < s.sent.length → ∀ now, ∃ t, step s (.receive now) = some t ∧
        t.received.length = s.received.length + 1) := by
  obtain ⟨parcels, past, hintact⟩ : ∃ parcels past, Intact s parcels past :=
    hrun.invariant (p := fun s => ∃ parcels past, Intact s parcels past)
      (fun _ op _ hs hfits hstep => intact_step hx op hs hfits hstep)
      ⟨[], [], intact_init hkey⟩
  have hlength : s.received.length = past.length := by
    rw [hintact.received_eq, List.length_map]
  refine ⟨?_, ?_⟩
  · rw [hlength, hintact.sent_eq, List.take_left, hintact.received_eq]
  · intro hmissing now
    rcases parcels with _ | ⟨parcel, parcels⟩
    · rw [hlength, hintact.sent_eq, List.map_nil, List.append_nil] at hmissing
      exact absurd hmissing (lt_irrefl _)
    · obtain ⟨hdecode, htaken⟩ := hintact.receive hx now
      refine ⟨_, by rw [step, hdecode], ?_⟩
      rw [htaken.received_eq, hlength, List.length_map, List.length_append, List.length_singleton]

omit [Externals] in
/-- The state after a result that the ring took at `pos`. -/
def recorded (s : State) (ring : ShmRing) (id : UInt64) (pos : Nat) (payload : Bytes) : State :=
  { s with
    ring := some (ring.tryWrite payload).2
    wire := s.wire ++ (shmRefFrame .callToolResult id pos (Frame.lenU32 payload)).encode
    sent := s.sent ++ [(id, payload)] }

theorem send_record {s : State} {ring : ShmRing} {payload : Bytes} {pos : Nat} (id : UInt64)
    (hring : s.ring = some ring) (hlarge : shmThreshold ≤ payload.length)
    (hwrite : (ring.tryWrite payload).1 = some pos) :
    step s (.send id payload false) = some (recorded s ring id pos payload) ∧
      FramesFit s (.send id payload false) := by
  have hwrap : wrapMaybeShm s.server s.ring id payload =
      (shmRefFrame .callToolResult id pos (Frame.lenU32 payload), s.server,
        some (ring.tryWrite payload).2) := by
    rw [wrapMaybeShm, hring]
    exact wrapShm_of_write _ _ _ hlarge hwrite
  constructor
  · simp only [step, sentFrame, hwrap]
    rfl
  · simp only [FramesFit, hwrap]
    exact (wellFormed_shmRefFrame .callToolResult id pos (Frame.lenU32 payload)).length_le

/-- What the server sent stays as it is when the client takes a frame. -/
theorem sent_receive {s t : State} {now : Nat} (hstep : step s (.receive now) = some t) :
    t.sent = s.sent := by
  rw [step] at hstep
  split at hstep
  · obtain rfl := Option.some.inj hstep
    unfold take
    split <;> rfl
  · cases hstep
  · obtain rfl := Option.some.inj hstep
    rfl

omit [Externals] in
/-- A new ring takes a large result that fits it, at its first cell. -/
theorem write_create {cap : Nat} (hcap : 0 < cap) {payload : Bytes} (hlen : 0 < payload.length)
    (hfit : payload.length ≤ cap) (hlt : payload.length < 2 ^ 64) :
    (ShmRing.create cap hcap).CursorFits payload.length ∧
      ((ShmRing.create cap hcap).tryWrite payload).1 = some 0 := by
  set ring := ShmRing.create cap hcap
  have hpos : nextFit ring.cap ring.head payload.length = 0 := by
    rw [show ring.head = 0 from rfl, nextFit, Nat.zero_mod, if_neg]
    rw [show ring.cap = cap from rfl]
    omega
  obtain ⟨hcursor, hwrite⟩ := ShmRing.tryWrite_of_room hpos hlen hfit
    (show 0 + payload.length ≤ 0 + cap by omega) (by omega) (le_refl 0)
  exact ⟨hcursor, congrArg Prod.fst hwrite⟩

/-- A large result through a new ring, and a small one that is wrapped and marked as cacheable. -/
def bothOps (large small : Bytes) : List Op :=
  [.attach defaultShmCap defaultShmCap_pos, .send 1 large false, .send 2 small true]

/-- Both are queued before the client takes the first. -/
theorem both_run (pipeline : PayloadPipeline) {large small : Bytes}
    (hlarge : shmThreshold ≤ large.length) (hfit : large.length ≤ defaultShmCap)
    (hsmall : small.length < shmThreshold)
    (hframe : (pipeline.wrap .callToolResult 2 small).1.payload.length ≤ maxFrameLen) :
    ∃ s, Run step Fits (init pipeline pipeline) (bothOps large small) s ∧
      s.received = [] ∧ s.sent = [(1, large), (2, small)] ∧
      s.wire = (shmRefFrame .callToolResult 1 0 (Frame.lenU32 large)).encode ++
        (markCacheable (pipeline.wrap .callToolResult 2 small).1).encode := by
  have hpos : 0 < shmThreshold := by decide
  have hcap : defaultShmCap = 2 ^ 22 := by decide
  obtain ⟨hcursor, hwrite⟩ :=
    write_create defaultShmCap_pos (hpos.trans_le hlarge) hfit (by omega)
  set ring := ShmRing.create defaultShmCap defaultShmCap_pos with hring
  set start : State := { init pipeline pipeline with ring := some ring } with hstart
  have hattach : step (init pipeline pipeline) (.attach defaultShmCap defaultShmCap_pos) =
      some start := rfl
  obtain ⟨hsend, hrecord⟩ := send_record (s := start) 1 rfl hlarge hwrite
  set s₁ := recorded start ring 1 0 large with hs₁
  have hinline : wrapMaybeShm s₁.server s₁.ring 2 small =
      ((pipeline.wrap .callToolResult 2 small).1, (pipeline.wrap .callToolResult 2 small).2,
        s₁.ring) :=
    wrapShm_of_none pipeline .callToolResult 2 (recordOffset_of_small s₁.ring (by omega))
  have hfits : FramesFit s₁ (.send 2 small true) := by
    rw [FramesFit, hinline]
    exact hframe
  have hsent : sentFrame s₁ 2 small true = markCacheable (pipeline.wrap .callToolResult 2 small).1 := by
    rw [sentFrame, hinline]
    rfl
  refine ⟨_, .cons hattach ⟨by change defaultShmCap ≤ maxShmCap; decide, trivial⟩
    (.cons hsend ⟨hrecord, ?_⟩ (.cons rfl ⟨hfits, fun _ _ h => absurd h (by omega)⟩ (.nil _))),
    rfl, rfl, ?_⟩
  · intro taken htaken _
    rw [← Option.some.inj htaken]
    exact fun _ => hcursor
  · rw [← hsent]
    rfl

omit [Externals] in
/-- Two results of an encrypted session, by way of the ring and beside it. -/
theorem every_way_delivers_both :
    letI : Externals := .plain
    let pipeline := PayloadPipeline.new.enableEncryption .zeros [0, 0, 0, 0] rfl
    let large := fill 7 shmThreshold
    ∃ s u, Run step Fits (init pipeline pipeline) (bothOps large [1, 2, 3]) s ∧
      Run step Fits s [.receive 0, .receive 0] u ∧
      (∃ first second : Frame, s.wire = first.encode ++ second.encode ∧
        first.header.flags.shmRef = true ∧ second.header.flags.encrypted = true ∧
        second.header.flags.cacheable = true) ∧
      u.received = [delivered (1, large), delivered (2, [1, 2, 3])] := by
  let _ : Externals := .plain
  intro pipeline large
  have hlength : large.length = shmThreshold := length_fill 7 _
  have hfit : shmThreshold ≤ defaultShmCap := by decide
  -- only its length matters
  clear_value large
  have hsmall : ([1, 2, 3] : Bytes).length < shmThreshold := by decide
  obtain ⟨s, hrun, hnone, hsent, hwire⟩ :=
    both_run pipeline hlength.ge (hlength.trans_le hfit) hsmall (by decide)
  obtain ⟨_, hprogress⟩ := every_way_delivers Externals.plain_lossless rfl hrun
  obtain ⟨t, hfirst, hone⟩ := hprogress (by rw [hnone, hsent]; exact Nat.two_pos) 0
  have hsent' : t.sent = s.sent := sent_receive hfirst
  have hrun' := hrun.snoc hfirst ⟨trivial, trivial⟩
  obtain ⟨_, hprogress'⟩ := every_way_delivers Externals.plain_lossless rfl hrun'
  obtain ⟨u, hlast, htwo⟩ :=
    hprogress' (by rw [hone, hnone, hsent', hsent]; exact Nat.one_lt_two) 0
  obtain ⟨hreceived, _⟩ := every_way_delivers Externals.plain_lossless rfl
    (hrun'.snoc hlast ⟨trivial, trivial⟩)
  refine ⟨s, u, hrun, .cons hfirst ⟨trivial, trivial⟩ (.cons hlast ⟨trivial, trivial⟩ (.nil u)),
    ⟨_, _, hwire, ?_, ?_⟩, ?_⟩
  · exact (refers_shmRefFrame .callToolResult 1 0 large).shmRef_eq
  · decide
  · rw [hreceived, htwo, hone, hnone, sent_receive hlast, hsent', hsent]
    rfl

/-! ### The wrap of the cursors -/

/-- A result the size of the default ring, sent and taken. -/
def fullRound : List Op := [.send 0 (fill 0 (2 ^ 22)) false, .receive 0]

/-- Full rounds up to one capacity below `2^64`, then two half-capacity results before the client
takes the first. -/
def wrapOps : List Op :=
  .attach defaultShmCap defaultShmCap_pos :: (List.replicate (2 ^ 42 - 1) fullRound).flatten ++
    [.send 1 (fill 0 (2 ^ 21)) false, .send 2 (fill 0 (2 ^ 21)) false, .receive 0]

/-- Nothing is on the wire, and both cursors of the default ring stand `n` laps on. -/
structure AtLap (s : State) (n : Nat) : Prop where
  client_eq : s.client = .new
  wire_eq : s.wire = []
  ring_eq : ∃ ring, s.ring = some ring ∧ ring.cap = 2 ^ 22 ∧ ring.head = n * 2 ^ 22 ∧
    ring.tail = n * 2 ^ 22

section Wrap

variable {s : State} {ring : ShmRing} {payload : Bytes} {pos : Nat}

/-- Takes the only frame on the wire. -/
theorem receive_single {frame : Frame} {now : Nat} (hwf : frame.WellFormed)
    (hwire : s.wire = frame.encode) : step s (.receive now) = some (take s now frame []) := by
  rw [step, hwire, Frame.decode_encode hwf]

/-- A full round moves both cursors one lap on. -/
theorem full_round {n : Nat} (hlap : AtLap s n) (hn : n + 1 < 2 ^ 42) :
    ∃ t, Run step FramesFit s fullRound t ∧ AtLap t (n + 1) := by
  obtain ⟨hclient, hwire, ring, hring, hcap, hhead, htail⟩ := hlap
  have hlength := length_fill 0 (2 ^ 22)
  set payload := fill 0 (2 ^ 22) with hpayload
  have hmod : ring.head % ring.cap = 0 := by rw [hhead, hcap, Nat.mul_mod_left]
  have hfit : nextFit ring.cap ring.head payload.length = ring.head := by
    rw [nextFit, hmod, if_neg (by omega)]
  obtain ⟨_, hwrite⟩ := ShmRing.tryWrite_of_room hfit (by omega) (by omega) (by omega) (by omega)
    (by omega)
  have hlt : ring.head + payload.length < 2 ^ 64 := by omega
  have hholds : (ring.written ring.head payload).Holds ⟨ring.head, payload⟩ := by
    refine ShmRing.holds_written (by omega) ?_ hlt
    rw [Contiguous]
    omega
  have hread := ShmRing.readRelease_of_holds hholds (by rw [ShmRing.head_written hlt]; omega)
  have hlarge : shmThreshold ≤ payload.length := by rw [hlength]; decide
  obtain ⟨hsend, hsendFits⟩ := send_record 0 hring hlarge (congrArg Prod.fst hwrite)
  obtain ⟨resolved, hresolve, htype, hid, _, _, hunwrap⟩ :=
    Refers.receive PayloadPipeline.new downlinkErrors (by omega) (by omega)
      (refers_shmRefFrame .callToolResult 0 ring.head payload) hread 0
  set s' := recorded s ring 0 ring.head payload with hs'
  have hreceive : step s' (.receive 0) =
      some { s' with
        ring := some { ring.written ring.head payload with tail := ring.head + payload.length }
        wire := []
        received := s'.received ++ [delivered (0, payload)] } := by
    have hframe : s'.wire =
        (shmRefFrame .callToolResult 0 ring.head (Frame.lenU32 payload)).encode := by
      rw [hs', recorded, hwire, List.nil_append]
    rw [receive_single (wellFormed_shmRefFrame .callToolResult 0 ring.head _) hframe]
    refine congrArg some (take_eq (0, payload) ?_ htype hid ?_)
    · rw [hs', recorded, hwrite]
      exact hresolve
    · rw [hs', recorded, hclient]
      exact hunwrap
  have hrun : Run step FramesFit s [.send 0 payload false, .receive 0] _ :=
    .cons hsend hsendFits (.cons hreceive trivial (.nil _))
  rw [fullRound, ← hpayload]
  refine ⟨_, hrun, hclient, rfl, _, rfl, ?_, ?_, ?_⟩
  · dsimp only
    rw [ShmRing.cap_written, hcap]
  · dsimp only
    rw [ShmRing.head_written hlt]
    omega
  · dsimp only
    omega

theorem full_rounds {n : Nat} (hlap : AtLap s 0) (hn : n < 2 ^ 42) :
    ∃ t, Run step FramesFit s (List.replicate n fullRound).flatten t ∧ AtLap t n := by
  induction n with
  | zero => exact ⟨s, .nil s, hlap⟩
  | succ n ih =>
      obtain ⟨t, hrun, hlap'⟩ := ih (by omega)
      obtain ⟨u, hround, hlap''⟩ := full_round hlap' hn
      refine ⟨u, ?_, hlap''⟩
      rw [List.replicate_succ', List.flatten_append, List.flatten_singleton]
      exact hrun.append hround

omit [Externals] in
/-- One lap below `2^64` the ring takes two half-capacity records, and its head is zero. -/
theorem wrap_writes {half : Bytes} (hcap : ring.cap = 2 ^ 22)
    (hhead : ring.head = (2 ^ 42 - 1) * 2 ^ 22) (htail : ring.tail = (2 ^ 42 - 1) * 2 ^ 22)
    (hhalf : half.length = 2 ^ 21) :
    (ring.tryWrite half).1 = some ring.head ∧
      ((ring.tryWrite half).2.tryWrite half).1 = some (ring.head + 2 ^ 21) ∧
      (((ring.tryWrite half).2.tryWrite half).2.readRelease ring.head half.length).1 = none := by
  have hmod : ring.head % ring.cap = 0 := by rw [hhead, hcap, Nat.mul_mod_left]
  have hfit : nextFit ring.cap ring.head half.length = ring.head := by
    rw [nextFit, hmod, if_neg (by omega)]
  obtain ⟨_, hfirst⟩ := ShmRing.tryWrite_of_room hfit (by omega) (by omega) (by omega) (by omega)
    (by omega)
  set next := ring.written ring.head half with hnext
  have hnextCap : next.cap = 2 ^ 22 := hcap
  have hnextTail : next.tail = (2 ^ 42 - 1) * 2 ^ 22 := htail
  have hnextHead : next.head = ring.head + 2 ^ 21 := by
    rw [hnext, ShmRing.head_written (by omega), hhalf]
  have hpos : next.writePos half.length = ring.head + 2 ^ 21 := by
    rw [ShmRing.writePos, hnextCap, hnextHead, hhalf, if_neg]
    rw [wrap64_of_lt (by omega)]
    omega
  have hsecond : next.tryWrite half =
      (some (ring.head + 2 ^ 21), next.written (ring.head + 2 ^ 21) half) := by
    rw [ShmRing.tryWrite, if_neg (by omega)]
    dsimp only
    rw [hpos, hnextTail, hnextCap, hhalf, if_neg]
    rw [wrapSub64, wrap64, wrap64]
    omega
  refine ⟨congrArg Prod.fst hfirst, ?_, ?_⟩
  · rw [hfirst]
    exact congrArg Prod.fst hsecond
  · have hzero : (next.written (ring.head + 2 ^ 21) half).head = 0 := by
      rw [ShmRing.written]
      dsimp only
      rw [wrap64]
      omega
    have hfits : ¬ (2 ^ 21 = 0 ∨ (next.written (ring.head + 2 ^ 21) half).cap < 2 ^ 21 ∨
        (next.written (ring.head + 2 ^ 21) half).cap <
          wrap64 (ring.head % (next.written (ring.head + 2 ^ 21) half).cap + 2 ^ 21)) := by
      rw [ShmRing.cap_written, hnextCap, wrap64_of_lt (by omega)]
      omega
    have hbeyond : (next.written (ring.head + 2 ^ 21) half).head <
        wrap64 (ring.head + 2 ^ 21) := by
      rw [hzero, wrap64_of_lt (by omega)]
      omega
    rw [hfirst, hsecond, hhalf]
    dsimp only
    rw [ShmRing.readRelease, if_neg hfits, if_pos hbeyond]

/-- A reference the ring refuses. -/
theorem take_refused (id : UInt64) (now : Nat) {offset : Nat} (rest : Bytes) (hring : s.ring = some ring)
    (hoffset : offset < 2 ^ 64) (hlen : payload.length < 2 ^ 32)
    (hread : (ring.readRelease offset payload.length).1 = none) :
    (take s now (shmRefFrame .callToolResult id offset (Frame.lenU32 payload)) rest).received =
      s.received ++ [.error (.text (downlinkErrors.invalid offset (Frame.lenU32 payload)))] := by
  have hlenU32 : (Frame.lenU32 payload).toNat = payload.length := by
    rw [Frame.lenU32, UInt32.toNat_ofNat_of_lt' hlen]
  have href := refers_shmRefFrame .callToolResult id offset payload
  have hresolve : resolveShm s.ring (shmRefFrame .callToolResult id offset (Frame.lenU32 payload)) =
      (.error (downlinkErrors.invalid offset (Frame.lenU32 payload)),
        some (ring.readRelease offset payload.length).2) := by
    unfold resolveShm resolveRef
    rw [if_pos href.shmRef_eq, hring]
    simp only [href.payload_eq, decodeShmRef_encodeShmRef hoffset, hlenU32]
    rw [show ring.readRelease offset payload.length =
      (none, (ring.readRelease offset payload.length).2) from Prod.ext hread rfl]
  rw [take, hresolve]

end Wrap

omit [Externals] in
/-- After `2^64` bytes the end of a record wraps to zero: the reference to the record before it,
still on the wire, is refused, and the client gets an error for a result that was sent. -/
theorem cursor_wrap_loses_result :
    letI : Externals := .plain
    ∃ s, Run step FramesFit (init .new .new) wrapOps s ∧
      ∃ message, .error (.text message) ∈ s.received := by
  let _ : Externals := .plain
  have hstart : AtLap
      { init .new .new with ring := some (.create defaultShmCap defaultShmCap_pos) } 0 :=
    ⟨rfl, rfl, _, rfl, rfl, rfl, rfl⟩
  have hattach : Run step FramesFit (init .new .new) [.attach defaultShmCap defaultShmCap_pos] _ :=
    .cons rfl (by change defaultShmCap ≤ maxShmCap; decide) (.nil _)
  obtain ⟨s, hrounds, _, hwire, ring, hring, hcap, hhead, htail⟩ :=
    full_rounds (n := 2 ^ 42 - 1) hstart (by decide)
  have hlength := length_fill 0 (2 ^ 21)
  set half := fill 0 (2 ^ 21) with hhalf
  have hlarge : shmThreshold ≤ half.length := by rw [hlength]; decide
  obtain ⟨hfirst, hsecond, hread⟩ := wrap_writes hcap hhead htail hlength
  obtain ⟨hsend₁, hfits₁⟩ := send_record 1 hring hlarge hfirst
  set s₁ := recorded s ring 1 ring.head half with hs₁
  obtain ⟨hsend₂, hfits₂⟩ := send_record (s := s₁) 2 rfl hlarge hsecond
  set s₂ := recorded s₁ (ring.tryWrite half).2 2 (ring.head + 2 ^ 21) half with hs₂
  set frame₁ := shmRefFrame .callToolResult 1 ring.head (Frame.lenU32 half) with hframe₁
  set frame₂ := shmRefFrame .callToolResult 2 (ring.head + 2 ^ 21) (Frame.lenU32 half) with hframe₂
  have hdecode : Frame.decode s₂.wire = (.ok (some frame₁), frame₂.encode) := by
    rw [hs₂, recorded, hs₁, recorded, hwire, List.nil_append]
    exact Frame.decode_encode_append (wellFormed_shmRefFrame .callToolResult 1 ring.head _) _
  have hreceive : step s₂ (.receive 0) = some (take s₂ 0 frame₁ frame₂.encode) := by
    rw [step, hdecode]
  have hfinal := take_refused (s := s₂) 1 0 frame₂.encode rfl (by omega) (by omega) hread
  refine ⟨take s₂ 0 frame₁ frame₂.encode, ?_,
    downlinkErrors.invalid ring.head (Frame.lenU32 half), ?_⟩
  · rw [wrapOps]
    exact (hattach.append hrounds).append (.cons hsend₁ hfits₁
      (.cons hsend₂ hfits₂ (.cons hreceive trivial (.nil _))))
  · rw [hfinal]
    exact List.mem_append_right _ List.mem_cons_self

end Delivery

end Ohmcp
