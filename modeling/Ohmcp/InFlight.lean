import Ohmcp.ResultDelivery

/-! Frames on their way in one direction, with what each opens to at the other end: a body, wrapped
by the pipeline or recorded in the ring, or a reference to a cached result. -/

open Circular

namespace Ohmcp

variable [Externals]

/-! ### Shipments -/

/-- What a frame is good for at the other end. -/
inductive Load where
  | body (payload : Bytes)
  | reference (key : CacheKey)
  deriving DecidableEq

namespace Load

omit [Externals] in
def isReference : Load → Bool
  | body _ => false
  | reference _ => true

omit [Externals] in
/-- What unwrapping makes of it. -/
def unwrapped (pipeline : PayloadPipeline) (now : Nat) : Load → Except String Bytes × PayloadPipeline
  | body payload => (.ok payload, pipeline)
  | reference key =>
      ((pipeline.cache.live now key).elim (.error "cache ref miss") .ok,
        { pipeline with cache := (pipeline.cache.get now key).2 })

end Load

/-- A frame, what it carries, and where the record of it lies if it has one. -/
structure Shipment where
  frame : Frame
  msgType : MsgType
  id : UInt64
  load : Load
  cacheable : Bool
  offset : Option Nat

namespace Shipment

/-- How the frame carries its load, under the key of the session. -/
def Carried (key : Option Bytes32) (shipment : Shipment) : Prop :=
  match shipment.load with
  | .body payload =>
      Ships key shipment.msgType shipment.id payload shipment.frame shipment.offset
  | .reference cacheKey => shipment.offset = none ∧ ∃ sender : PayloadPipeline,
      sender.cipherKey = key ∧
        shipment.frame = (sender.wrapCacheRef shipment.msgType shipment.id cacheKey).1

structure Ready (key : Option Bytes32) (shipment : Shipment) : Prop where
  carried : shipment.Carried key
  cacheable_eq : shipment.frame.header.flags.cacheable = shipment.cacheable

/-- The frame after the resolution of its reference into the ring. -/
structure Opens (key : Option Bytes32) (shipment : Shipment) (resolved : Frame) : Prop where
  msgType_eq : resolved.header.msgType = shipment.msgType
  requestId_eq : resolved.header.requestId = shipment.id
  cacheable_eq : resolved.header.flags.cacheable = shipment.cacheable
  cacheRef_eq : resolved.header.flags.cacheRef = shipment.load.isReference
  unwrap_eq : ∀ (pipeline : PayloadPipeline) (now : Nat), pipeline.cipherKey = key →
    pipeline.unwrap now resolved = shipment.load.unwrapped pipeline now

variable {key : Option Bytes32} {shipment : Shipment} {shm : Option ShmRing}

/-- A frame without a record opens to its load, and the ring is not touched. -/
theorem Ready.opens_inline (hx : Externals.Lossless) (hready : shipment.Ready key)
    (hoffset : shipment.offset = none) (errors : RefErrors) (shm : Option ShmRing) :
    resolveRef errors shm shipment.frame = (.ok shipment.frame, shm) ∧
      shipment.Opens key shipment.frame := by
  obtain ⟨frame, msgType, id, load, cacheable, offset⟩ := shipment
  obtain ⟨hcarried, hcacheable⟩ := hready
  subst hoffset
  cases load with
  | body payload =>
      obtain ⟨hinline, sender, hkey, hcarries⟩ := hcarried
      refine ⟨resolveRef_inline hinline, hcarries.msgType_eq, hcarries.requestId_eq, hcacheable,
        hcarries.cacheRef_eq, ?_⟩
      intro pipeline now hpipeline
      exact PayloadPipeline.unwrap_of_carries hx (hpipeline.trans hkey.symm) now hcarries
  | reference cacheKey =>
      obtain ⟨_, sender, hkey, hframe⟩ := hcarried
      have hflags := PayloadPipeline.wrapCacheRef_flags sender msgType id cacheKey
      rw [← hframe] at hflags
      refine ⟨resolveRef_inline hflags.2.2.1, ?_, ?_, hcacheable, hflags.2.1, ?_⟩
      · exact congrArg (fun frame => frame.header.msgType) hframe
      · exact congrArg (fun frame => frame.header.requestId) hframe
      · intro pipeline now hpipeline
        have hunwrap : pipeline.unwrap now (sender.wrapCacheRef msgType id cacheKey).1 = _ :=
          PayloadPipeline.unwrap_wrapCacheRef hx (hpipeline.trans hkey.symm) now cacheKey
        rw [← hframe] at hunwrap
        exact hunwrap

/-- A frame with a record the ring returns opens to it. -/
theorem Ready.opens_record {ring ring' : ShmRing} {payload : Bytes} {offset : Nat}
    (hready : shipment.Ready key) (hload : shipment.load = .body payload)
    (hoffset : shipment.offset = some offset) (errors : RefErrors) (hlt : offset < 2 ^ 64)
    (hlen : payload.length < 2 ^ 32)
    (hread : ring.readRelease offset payload.length = (some payload, ring')) :
    ∃ resolved, resolveRef errors (some ring) shipment.frame = (.ok resolved, some ring') ∧
      shipment.Opens key resolved := by
  obtain ⟨frame, msgType, id, load, cacheable, own⟩ := shipment
  obtain ⟨hcarried, hcacheable⟩ := hready
  subst hload hoffset
  obtain ⟨resolved, hresolve, htype, hid, hflag, hreference, _⟩ :=
    Refers.receive (.new : PayloadPipeline) errors hlt hlen hcarried hread 0
  refine ⟨resolved, hresolve, htype, hid, hflag.trans hcacheable, hreference, ?_⟩
  intro pipeline now _
  obtain ⟨again, hagain, _, _, _, _, hunwrap⟩ :=
    Refers.receive pipeline errors hlt hlen hcarried hread now
  rw [hresolve] at hagain
  cases hagain
  exact hunwrap

end Shipment

/-! ### Sending -/

/-- One more frame is out, and the ring has taken its record if it has one. -/
structure Sent (key : Option Bytes32) (shm : Option ShmRing) (shipment : Shipment)
    (shm' : Option ShmRing) : Prop where
  ready : shipment.Ready key
  ring_eq : (shipment.offset = none ∧ shm' = shm) ∨
    ∃ ring payload offset, shipment.load = .body payload ∧ shipment.offset = some offset ∧
      shm = some ring ∧ (ring.tryWrite payload).1 = some offset ∧
      shm' = some (ring.tryWrite payload).2

section Sending

variable (pipeline : PayloadPipeline) (shm : Option ShmRing) (msgType : MsgType) (id : UInt64)

omit [Externals] in
/-- A frame with `CACHEABLE` set or not. -/
def marked (cacheable : Bool) (frame : Frame) : Frame :=
  if cacheable then markCacheable frame else frame

/-- The shipment of a body, by way of the ring where it is large and fits. -/
def bodyShipment (payload : Bytes) (cacheable : Bool) : Shipment where
  frame := marked cacheable (wrapShm pipeline shm msgType id payload).1
  msgType := msgType
  id := id
  load := .body payload
  cacheable := cacheable
  offset := recordOffset shm payload

theorem cacheable_wrapShm (payload : Bytes) :
    (wrapShm pipeline shm msgType id payload).1.header.flags.cacheable = false := by
  rcases wrapShm_cases pipeline shm msgType id payload with ⟨_, _, _, _, _, hwrap⟩ | ⟨_, hwrap⟩
  · rw [hwrap]
    exact (by decide : (FrameFlags.none.set FrameFlags.SHM_REF).cacheable = false)
  · rw [hwrap]
    exact (PayloadPipeline.wrap_flags pipeline msgType id payload).2.2.2

theorem sent_wrapShm (payload : Bytes) (cacheable : Bool) :
    Sent pipeline.cipherKey shm (bodyShipment pipeline shm msgType id payload cacheable)
      (wrapShm pipeline shm msgType id payload).2.2 := by
  obtain ⟨hships, _, hring⟩ := wrapShm_ships pipeline shm msgType id payload
  refine ⟨⟨?_, ?_⟩, ?_⟩
  · cases cacheable with
    | false => exact hships
    | true => exact hships.setCacheable
  · cases cacheable with
    | false => exact cacheable_wrapShm pipeline shm msgType id payload
    | true => exact FrameFlags.cacheable_set_cacheable _
  · rcases hring with hnone | ⟨ring, pos, hshm, hpos, hwrite, hafter⟩
    · exact .inl hnone
    · exact .inr ⟨ring, payload, pos, rfl, hpos, hshm, hwrite, hafter⟩

theorem cipherKey_wrapShm (payload : Bytes) :
    (wrapShm pipeline shm msgType id payload).2.1.cipherKey = pipeline.cipherKey :=
  (wrapShm_ships pipeline shm msgType id payload).2.1

/-- The shipment of a small body. -/
def inlineShipment (payload : Bytes) : Shipment where
  frame := (pipeline.wrap msgType id payload).1
  msgType := msgType
  id := id
  load := .body payload
  cacheable := false
  offset := none

theorem sent_wrap (payload : Bytes) :
    Sent pipeline.cipherKey shm (inlineShipment pipeline msgType id payload) shm := by
  have hflags := PayloadPipeline.wrap_flags pipeline msgType id payload
  exact ⟨⟨⟨hflags.2.2.1, pipeline, rfl, PayloadPipeline.carries_wrap payload⟩, hflags.2.2.2⟩,
    .inl ⟨rfl, rfl⟩⟩

/-- The shipment of a reference to a cached result. -/
def referenceShipment (cacheKey : CacheKey) : Shipment where
  frame := (pipeline.wrapCacheRef msgType id cacheKey).1
  msgType := msgType
  id := id
  load := .reference cacheKey
  cacheable := false
  offset := none

theorem sent_wrapCacheRef (cacheKey : CacheKey) :
    Sent pipeline.cipherKey shm (referenceShipment pipeline msgType id cacheKey) shm :=
  ⟨⟨⟨rfl, pipeline, rfl, rfl⟩, (PayloadPipeline.wrapCacheRef_flags pipeline msgType id cacheKey).2.2.2⟩,
    .inl ⟨rfl, rfl⟩⟩

end Sending

/-! ### One frame at a time -/

/-- There is no ring, or it is level. -/
def Idle (shm : Option ShmRing) : Prop := ∀ ring, shm = some ring → ring.Level

/-- A frame that is taken before the next one is sent opens to its load. -/
theorem Idle.exchange (hx : Externals.Lossless) {key : Option Bytes32} {shm shm' : Option ShmRing}
    {shipment : Shipment} (hidle : Idle shm) (hsent : Sent key shm shipment shm')
    (errors : RefErrors) :
    ∃ resolved shm'', resolveRef errors shm' shipment.frame = (.ok resolved, shm'') ∧
      shipment.Opens key resolved ∧ Idle shm'' := by
  rcases hsent.ring_eq with ⟨hnone, hsame⟩ | ⟨ring, payload, offset, hload, hoffset, hshm, hwrite, hafter⟩
  · obtain ⟨hresolve, hopens⟩ := hsent.ready.opens_inline hx hnone errors shm'
    exact ⟨_, _, hresolve, hopens, hsame ▸ hidle⟩
  · obtain ⟨hlt, hlen, hread, hlevel⟩ := (hidle ring hshm).write_read hwrite
    obtain ⟨resolved, hresolve, hopens⟩ := hsent.ready.opens_record hload hoffset errors hlt hlen
      (Prod.ext hread rfl)
    refine ⟨resolved, _, by rw [hafter]; exact hresolve, hopens, ?_⟩
    intro after hsome
    rw [← Option.some.inj hsome]
    exact hlevel

omit [Externals] in
/-- A new ring is level. -/
theorem idle_newRing : Idle (some newRing) := by
  intro ring hring
  rw [← Option.some.inj hring]
  exact ⟨rfl, by decide, by decide, by decide⟩

omit [Externals] in
theorem idle_none : Idle none := nofun

end Ohmcp
