import Ohmcp.PayloadPipeline
import Ohmcp.ShmRing

/-! A payload goes out in one of two ways: as a 12-byte reference to a record of the ring, or
wrapped by the pipeline. Both ends send and resolve references alike. -/

open Circular LittleEndian

namespace Ohmcp

variable [Externals]

/-! ### Sending -/

omit [Externals] in
/-- The frame that refers to a record of `len` bytes. -/
def shmRefFrame (msgType : MsgType) (requestId : UInt64) (offset : Nat) (len : UInt32) : Frame :=
  let frame := Frame.new msgType requestId (encodeShmRef offset len)
  { frame with
    header := { frame.header with flags := frame.header.flags.set FrameFlags.SHM_REF } }

/-- A reference into the ring for a large payload that fits there, else the wrapped payload. -/
def wrapShm (pipeline : PayloadPipeline) (shm : Option ShmRing) (msgType : MsgType)
    (requestId : UInt64) (payload : Bytes) : Frame × PayloadPipeline × Option ShmRing :=
  let inline := pipeline.wrap msgType requestId payload
  match shm with
  | none => (inline.1, inline.2, none)
  | some ring =>
      if shmThreshold ≤ payload.length then
        match ring.tryWrite payload with
        | (some offset, ring) =>
            (shmRefFrame msgType requestId offset (Frame.lenU32 payload), pipeline, some ring)
        | (none, ring) => (inline.1, inline.2, some ring)
      else (inline.1, inline.2, some ring)

omit [Externals] in
/-- The offset of the record of a payload, when the ring takes it. -/
def recordOffset (shm : Option ShmRing) (payload : Bytes) : Option Nat :=
  shm.bind fun ring => if shmThreshold ≤ payload.length then (ring.tryWrite payload).1 else none

omit [Externals] in
/-- A payload of one repeated byte. -/
@[irreducible] def fill (byte : UInt8) (len : Nat) : Bytes := List.replicate len byte

omit [Externals] in
theorem length_fill (byte : UInt8) (len : Nat) : (fill byte len).length = len := by
  rw [fill, List.length_replicate]

/-! ### Resolving -/

/-- The texts of the three errors. -/
structure RefErrors where
  noRing : String
  malformed : String
  invalid : Nat → UInt32 → String

omit [Externals] in
/-- Replaces a reference by the bytes it refers to, and releases their space. -/
def resolveRef (errors : RefErrors) (shm : Option ShmRing) (frame : Frame) :
    Except String Frame × Option ShmRing :=
  if frame.header.flags.shmRef then
    match shm with
    | none => (.error errors.noRing, none)
    | some ring =>
        match decodeShmRef frame.payload with
        | none => (.error errors.malformed, some ring)
        | some (offset, len) =>
            match ring.readRelease offset len.toNat with
            | (none, ring) => (.error (errors.invalid offset len), some ring)
            | (some data, ring) =>
                (.ok ⟨{ frame.header with
                    payloadLen := len
                    flags := frame.header.flags.clear FrameFlags.SHM_REF }, data⟩, some ring)
  else (.ok frame, shm)

/-! ### The two ways of a payload -/

section Ways

variable {pipeline : PayloadPipeline} {shm : Option ShmRing} {ring : ShmRing} {msgType : MsgType}
  {requestId : UInt64} {payload : Bytes} {errors : RefErrors} {frame : Frame}

variable (pipeline msgType requestId) in
theorem wrapShm_of_write {pos : Nat} (hlarge : shmThreshold ≤ payload.length)
    (hwrite : (ring.tryWrite payload).1 = some pos) :
    wrapShm pipeline (some ring) msgType requestId payload =
      (shmRefFrame msgType requestId pos (Frame.lenU32 payload), pipeline,
        some (ring.tryWrite payload).2) := by
  have hpair : ring.tryWrite payload = (some pos, (ring.tryWrite payload).2) := Prod.ext hwrite rfl
  simp only [wrapShm, if_pos hlarge]
  rw [hpair]

omit [Externals] in
theorem recordOffset_eq_some {pos : Nat} (h : recordOffset shm payload = some pos) :
    ∃ ring, shm = some ring ∧ shmThreshold ≤ payload.length ∧
      (ring.tryWrite payload).1 = some pos := by
  obtain ⟨ring, hshm, hwrite⟩ := Option.bind_eq_some_iff.mp h
  by_cases hlarge : shmThreshold ≤ payload.length
  · rw [if_pos hlarge] at hwrite
    exact ⟨ring, hshm, hlarge, hwrite⟩
  · rw [if_neg hlarge] at hwrite
    cases hwrite

omit [Externals] in
theorem recordOffset_of_small (shm : Option ShmRing) (h : ¬ shmThreshold ≤ payload.length) :
    recordOffset shm payload = none := by
  rcases shm with _ | ring
  · rfl
  · exact if_neg h

variable (pipeline msgType requestId) in
/-- Without a record, the ring is as it was. -/
theorem wrapShm_of_none (h : recordOffset shm payload = none) :
    wrapShm pipeline shm msgType requestId payload =
      ((pipeline.wrap msgType requestId payload).1, (pipeline.wrap msgType requestId payload).2,
        shm) := by
  rcases shm with _ | ring
  · rfl
  · rw [recordOffset, Option.bind_some] at h
    by_cases hlarge : shmThreshold ≤ payload.length
    · rw [if_pos hlarge] at h
      rw [wrapShm]
      simp only [if_pos hlarge]
      rw [show ring.tryWrite payload = (none, ring) from
        Prod.ext h (ShmRing.tryWrite_none h)]
    · simp only [wrapShm, if_neg hlarge]

/-- Either the ring took the payload, or it is as it was and the payload is wrapped. -/
theorem wrapShm_cases (pipeline : PayloadPipeline) (shm : Option ShmRing) (msgType : MsgType)
    (requestId : UInt64) (payload : Bytes) :
    (∃ ring offset, shm = some ring ∧ recordOffset shm payload = some offset ∧
      (ring.tryWrite payload).1 = some offset ∧
      wrapShm pipeline shm msgType requestId payload =
        (shmRefFrame msgType requestId offset (Frame.lenU32 payload), pipeline,
          some (ring.tryWrite payload).2)) ∨
    recordOffset shm payload = none ∧
      wrapShm pipeline shm msgType requestId payload =
        ((pipeline.wrap msgType requestId payload).1, (pipeline.wrap msgType requestId payload).2,
          shm) := by
  cases hrecord : recordOffset shm payload with
  | none => exact .inr ⟨rfl, wrapShm_of_none pipeline msgType requestId hrecord⟩
  | some offset =>
      obtain ⟨ring, rfl, hlarge, hwrite⟩ := recordOffset_eq_some hrecord
      exact .inl ⟨ring, offset, rfl, rfl, hwrite,
        wrapShm_of_write pipeline msgType requestId hlarge hwrite⟩

theorem payloadLen_wrapShm :
    (wrapShm pipeline shm msgType requestId payload).1.header.payloadLen =
      Frame.lenU32 (wrapShm pipeline shm msgType requestId payload).1.payload := by
  rcases wrapShm_cases pipeline shm msgType requestId payload with
    ⟨_, _, _, _, _, hwrap⟩ | ⟨_, hwrap⟩
  · rw [hwrap]
    rfl
  · rw [hwrap]
    rfl

theorem wellFormed_wrapShm
    (hlen : (wrapShm pipeline shm msgType requestId payload).1.payload.length ≤ maxFrameLen) :
    (wrapShm pipeline shm msgType requestId payload).1.WellFormed :=
  ⟨payloadLen_wrapShm, hlen⟩

omit [Externals] in
theorem wellFormed_shmRefFrame (msgType : MsgType) (requestId : UInt64) (offset : Nat)
    (len : UInt32) : (shmRefFrame msgType requestId offset len).WellFormed := by
  refine ⟨rfl, ?_⟩
  change (encodeShmRef offset len).length ≤ maxFrameLen
  rw [encodeShmRef, List.length_append, length_toLE, length_toLE]
  decide

omit [Externals] in
/-- A frame without a reference passes. -/
theorem resolveRef_inline (hinline : frame.header.flags.shmRef = false) :
    resolveRef errors shm frame = (.ok frame, shm) :=
  if_neg (by rw [hinline]; exact Bool.false_ne_true)

omit [Externals] in
/-- Resolution keeps the header but for the length and the reference flag. -/
theorem resolveRef_header {resolved : Frame} (h : (resolveRef errors shm frame).1 = .ok resolved) :
    resolved.header.msgType = frame.header.msgType ∧
      resolved.header.requestId = frame.header.requestId := by
  unfold resolveRef at h
  split_ifs at h
  · split at h
    · cases h
    · split at h
      · cases h
      · split at h
        · cases h
        · cases h
          exact ⟨rfl, rfl⟩
  · cases h
    exact ⟨rfl, rfl⟩

/-- A frame whose payload is to be taken as it is. -/
theorem unwrap_of_plain (hencrypted : frame.header.flags.encrypted = false)
    (hcompressed : frame.header.flags.compressed = false)
    (hcacheRef : frame.header.flags.cacheRef = false) (now : Nat) :
    pipeline.unwrap now frame = (.ok frame.payload, pipeline) := by
  have hopen : (pipeline.decryptStage frame).bind
      (maybeDecompress · frame.header.flags.compressed) = .ok frame.payload := by
    rw [PayloadPipeline.decryptStage, if_neg (by rw [hencrypted]; exact Bool.false_ne_true),
      hcompressed]
    rfl
  rw [PayloadPipeline.unwrap_of_open hopen, hcacheRef]
  rfl

/-- The frame is the payload, wrapped under a key. -/
def Inline (key : Option Bytes32) (msgType : MsgType) (requestId : UInt64) (payload : Bytes)
    (frame : Frame) : Prop :=
  frame.header.flags.shmRef = false ∧
    ∃ sender : PayloadPipeline, sender.cipherKey = key ∧ sender.Carries msgType requestId payload frame

omit [Externals] in
/-- The frame refers to the payload as a record at an offset. -/
structure Refers (offset : Nat) (msgType : MsgType) (requestId : UInt64) (payload : Bytes)
    (frame : Frame) : Prop where
  msgType_eq : frame.header.msgType = msgType
  requestId_eq : frame.header.requestId = requestId
  shmRef_eq : frame.header.flags.shmRef = true
  encrypted_eq : frame.header.flags.encrypted = false
  compressed_eq : frame.header.flags.compressed = false
  cacheRef_eq : frame.header.flags.cacheRef = false
  payload_eq : frame.payload = encodeShmRef offset (Frame.lenU32 payload)

omit [Externals] in
theorem refers_shmRefFrame (msgType : MsgType) (requestId : UInt64) (offset : Nat)
    (payload : Bytes) :
    Refers offset msgType requestId payload
      (shmRefFrame msgType requestId offset (Frame.lenU32 payload)) := by
  have hflags : let flags := FrameFlags.none.set FrameFlags.SHM_REF
      flags.shmRef = true ∧ flags.encrypted = false ∧ flags.compressed = false ∧
        flags.cacheRef = false := by
    decide
  exact ⟨rfl, rfl, hflags.1, hflags.2.1, hflags.2.2.1, hflags.2.2.2, rfl⟩

/-- What a frame ships its payload by: the pipeline, or the record at an offset. -/
def Ships (key : Option Bytes32) (msgType : MsgType) (requestId : UInt64) (payload : Bytes)
    (frame : Frame) : Option Nat → Prop
  | none => Inline key msgType requestId payload frame
  | some offset => Refers offset msgType requestId payload frame

/-- Setting `CACHEABLE` afterwards changes nothing of this. -/
theorem Ships.setCacheable {key : Option Bytes32} {offset : Option Nat}
    (hships : Ships key msgType requestId payload frame offset) :
    Ships key msgType requestId payload
      { frame with
        header := { frame.header with flags := frame.header.flags.set FrameFlags.CACHEABLE } }
      offset := by
  rcases offset with _ | offset
  · obtain ⟨hinline, sender, hkey, hcarries⟩ := hships
    refine ⟨by simpa using hinline, sender, hkey, hcarries.msgType_eq, hcarries.requestId_eq,
      hcarries.payload_eq, ?_, ?_, ?_⟩
    · simpa using hcarries.encrypted_eq
    · simpa using hcarries.compressed_eq
    · simpa using hcarries.cacheRef_eq
  · obtain ⟨htype, hid, hshm, hencrypted, hcompressed, hcacheRef, hpayload⟩ := hships
    refine ⟨htype, hid, ?_, ?_, ?_, ?_, hpayload⟩
    · simpa using hshm
    · simpa using hencrypted
    · simpa using hcompressed
    · simpa using hcacheRef

variable (errors shm) in
/-- A payload that was wrapped comes through, and the ring is not touched. -/
theorem Inline.receive (hx : Externals.Lossless) (hframe : Inline pipeline.cipherKey msgType
    requestId payload frame) (now : Nat) :
    frame.header.msgType = msgType ∧ frame.header.requestId = requestId ∧
      resolveRef errors shm frame = (.ok frame, shm) ∧
      pipeline.unwrap now frame = (.ok payload, pipeline) := by
  obtain ⟨hinline, sender, hkey, hcarries⟩ := hframe
  exact ⟨hcarries.msgType_eq, hcarries.requestId_eq, resolveRef_inline hinline,
    PayloadPipeline.unwrap_of_carries hx hkey.symm now hcarries⟩

variable (errors pipeline) in
/-- A record the ring returns comes through as well. -/
theorem Refers.receive {offset : Nat} {ring' : ShmRing} (hoffset : offset < 2 ^ 64)
    (hlen : payload.length < 2 ^ 32)
    (hframe : Refers offset msgType requestId payload frame)
    (hread : ring.readRelease offset payload.length = (some payload, ring')) (now : Nat) :
    ∃ resolved, resolveRef errors (some ring) frame = (.ok resolved, some ring') ∧
      resolved.header.msgType = msgType ∧ resolved.header.requestId = requestId ∧
      resolved.header.flags.cacheable = frame.header.flags.cacheable ∧
      resolved.header.flags.cacheRef = false ∧
      pipeline.unwrap now resolved = (.ok payload, pipeline) := by
  obtain ⟨htype, hid, hshm, hencrypted, hcompressed, hcacheRef, hpayload⟩ := hframe
  have hlenU32 : (Frame.lenU32 payload).toNat = payload.length := by
    rw [Frame.lenU32, UInt32.toNat_ofNat_of_lt' hlen]
  refine ⟨⟨{ frame.header with
    payloadLen := Frame.lenU32 payload
    flags := frame.header.flags.clear FrameFlags.SHM_REF }, payload⟩, ?_, htype, hid, ?_, ?_, ?_⟩
  · unfold resolveRef
    rw [if_pos hshm]
    simp only [hpayload, decodeShmRef_encodeShmRef hoffset, hlenU32, hread]
  · simp
  · simpa using hcacheRef
  · exact unwrap_of_plain (by simpa using hencrypted) (by simpa using hcompressed)
      (by simpa using hcacheRef) now

/-- Sending: the frame ships the payload, through the ring exactly when it took the payload. -/
theorem wrapShm_ships (pipeline : PayloadPipeline) (shm : Option ShmRing) (msgType : MsgType)
    (requestId : UInt64) (payload : Bytes) :
    let sent := wrapShm pipeline shm msgType requestId payload
    let offset := recordOffset shm payload
    Ships pipeline.cipherKey msgType requestId payload sent.1 offset ∧
      sent.2.1.cipherKey = pipeline.cipherKey ∧
      ((offset = none ∧ sent.2.2 = shm) ∨
        ∃ ring pos, shm = some ring ∧ offset = some pos ∧ (ring.tryWrite payload).1 = some pos ∧
          sent.2.2 = some (ring.tryWrite payload).2) := by
  intro sent offset
  rcases wrapShm_cases pipeline shm msgType requestId payload with
    ⟨ring, pos, hshm, hrecord, hwrite, hwrap⟩ | ⟨hrecord, hwrap⟩
  · have hoffset : offset = some pos := hrecord
    rw [show sent = _ from hwrap, hoffset]
    exact ⟨refers_shmRefFrame _ _ _ _, rfl, .inr ⟨ring, pos, hshm, rfl, hwrite, rfl⟩⟩
  · have hoffset : offset = none := hrecord
    have hflags := PayloadPipeline.wrap_flags pipeline msgType requestId payload
    rw [show sent = _ from hwrap, hoffset]
    exact ⟨⟨hflags.2.2.1, pipeline, rfl, PayloadPipeline.carries_wrap payload⟩,
      PayloadPipeline.cipherKey_wrap payload, .inl ⟨rfl, rfl⟩⟩

end Ways

end Ohmcp
