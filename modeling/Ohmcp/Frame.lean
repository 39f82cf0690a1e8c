import Ohmcp.LittleEndian

/-! The OHMF binary frame: a fixed 17-byte little-endian header (magic, version, flags, message
type, request id, payload length) and the payload. -/

open LittleEndian

namespace Ohmcp

abbrev Bytes := List UInt8

/-- A 32-byte digest, key or point. -/
structure Bytes32 where
  bytes : Bytes
  length_eq : bytes.length = 32
  deriving DecidableEq

def Bytes32.zeros : Bytes32 := ⟨List.replicate 32 0, rfl⟩

def frameMagic : Nat := 0x4F4D
def protocolVersion : UInt8 := 1
def headerLen : Nat := 17
def maxFrameLen : Nat := 64 * 1024 * 1024

inductive CoreError where
  | badMagic
  | badVersion (version : UInt8)
  | frameTooLarge (len : Nat)
  | incomplete
  | codec (text : String)
  | json
  deriving DecidableEq, Repr

/-! ### Flags -/

structure FrameFlags where
  bits : UInt8
  deriving DecidableEq, Repr

namespace FrameFlags

def none : FrameFlags := ⟨0⟩

def COMPRESSED : UInt8 := 0b00000001
def ENCRYPTED : UInt8 := 0b00000010
def CACHE_REF : UInt8 := 0b00000100
def CACHEABLE : UInt8 := 0b00001000
def SHM_REF : UInt8 := 0b00010000

def has (flags : FrameFlags) (flag : UInt8) : Bool := flags.bits &&& flag != 0

def compressed (flags : FrameFlags) : Bool := flags.has COMPRESSED
def encrypted (flags : FrameFlags) : Bool := flags.has ENCRYPTED
def cacheRef (flags : FrameFlags) : Bool := flags.has CACHE_REF
def cacheable (flags : FrameFlags) : Bool := flags.has CACHEABLE
def shmRef (flags : FrameFlags) : Bool := flags.has SHM_REF

/-- `flags.0 |= flag` -/
def set (flags : FrameFlags) (flag : UInt8) : FrameFlags := ⟨flags.bits ||| flag⟩

/-- `flags.0 &= !flag` -/
def clear (flags : FrameFlags) (flag : UInt8) : FrameFlags := ⟨flags.bits &&& ~~~flag⟩

section Bits

variable (flags : FrameFlags)

theorem of_bits {p : FrameFlags → Prop} (h : ∀ bits, p ⟨bits⟩) : p flags := h flags.bits

/-- Setting `CACHEABLE` leaves the other flags. -/
theorem flags_set_cacheable : ∀ bits : UInt8,
    (set ⟨bits⟩ CACHEABLE).compressed = compressed ⟨bits⟩ ∧
      (set ⟨bits⟩ CACHEABLE).encrypted = encrypted ⟨bits⟩ ∧
      (set ⟨bits⟩ CACHEABLE).cacheRef = cacheRef ⟨bits⟩ ∧
      (set ⟨bits⟩ CACHEABLE).shmRef = shmRef ⟨bits⟩ ∧ (set ⟨bits⟩ CACHEABLE).cacheable = true := by
  decide +kernel

/-- Clearing `SHM_REF` leaves the other flags. -/
theorem flags_clear_shmRef : ∀ bits : UInt8,
    (clear ⟨bits⟩ SHM_REF).shmRef = false ∧
      (clear ⟨bits⟩ SHM_REF).compressed = compressed ⟨bits⟩ ∧
      (clear ⟨bits⟩ SHM_REF).encrypted = encrypted ⟨bits⟩ ∧
      (clear ⟨bits⟩ SHM_REF).cacheRef = cacheRef ⟨bits⟩ ∧
      (clear ⟨bits⟩ SHM_REF).cacheable = cacheable ⟨bits⟩ := by
  decide +kernel

@[simp] theorem compressed_set_cacheable : (flags.set CACHEABLE).compressed = flags.compressed :=
  (flags_set_cacheable flags.bits).1

@[simp] theorem encrypted_set_cacheable : (flags.set CACHEABLE).encrypted = flags.encrypted :=
  (flags_set_cacheable flags.bits).2.1

@[simp] theorem cacheRef_set_cacheable : (flags.set CACHEABLE).cacheRef = flags.cacheRef :=
  (flags_set_cacheable flags.bits).2.2.1

@[simp] theorem shmRef_set_cacheable : (flags.set CACHEABLE).shmRef = flags.shmRef :=
  (flags_set_cacheable flags.bits).2.2.2.1

@[simp] theorem cacheable_set_cacheable : (flags.set CACHEABLE).cacheable = true :=
  (flags_set_cacheable flags.bits).2.2.2.2

@[simp] theorem shmRef_clear_shmRef : (flags.clear SHM_REF).shmRef = false :=
  (flags_clear_shmRef flags.bits).1

@[simp] theorem compressed_clear_shmRef : (flags.clear SHM_REF).compressed = flags.compressed :=
  (flags_clear_shmRef flags.bits).2.1

@[simp] theorem encrypted_clear_shmRef : (flags.clear SHM_REF).encrypted = flags.encrypted :=
  (flags_clear_shmRef flags.bits).2.2.1

@[simp] theorem cacheRef_clear_shmRef : (flags.clear SHM_REF).cacheRef = flags.cacheRef :=
  (flags_clear_shmRef flags.bits).2.2.2.1

@[simp] theorem cacheable_clear_shmRef : (flags.clear SHM_REF).cacheable = flags.cacheable :=
  (flags_clear_shmRef flags.bits).2.2.2.2

end Bits

end FrameFlags

/-! ### Message types -/

inductive MsgType where
  | initializeRequest
  | initializeResult
  | listTools
  | listToolsResult
  | callTool
  | callToolResult
  | ping
  | pong
  | auth
  | authResult
  | shmSetup
  | shmSetupResult
  | listResources
  | listResourcesResult
  | readResource
  | readResourceResult
  | listPrompts
  | listPromptsResult
  | getPrompt
  | getPromptResult
  | cancel
  | progress
  | subscribeResource
  | subscribeResourceResult
  | unsubscribeResource
  | resourceUpdated
  | resourceListChanged
  | error
  deriving DecidableEq, Repr

namespace MsgType

/-- The discriminant, `msg_type as u8`. -/
def toU8 : MsgType → UInt8
  | initializeRequest => 0x01
  | initializeResult => 0x02
  | listTools => 0x03
  | listToolsResult => 0x04
  | callTool => 0x05
  | callToolResult => 0x06
  | ping => 0x07
  | pong => 0x08
  | auth => 0x09
  | authResult => 0x0A
  | shmSetup => 0x0B
  | shmSetupResult => 0x0C
  | listResources => 0x0D
  | listResourcesResult => 0x0E
  | readResource => 0x0F
  | readResourceResult => 0x10
  | listPrompts => 0x11
  | listPromptsResult => 0x12
  | getPrompt => 0x13
  | getPromptResult => 0x14
  | cancel => 0x15
  | progress => 0x16
  | subscribeResource => 0x17
  | subscribeResourceResult => 0x18
  | unsubscribeResource => 0x19
  | resourceUpdated => 0x1A
  | resourceListChanged => 0x1B
  | error => 0x7F

/-- `{other:#x}` -/
def hexText (byte : UInt8) : String := "0x" ++ String.ofList (Nat.toDigits 16 byte.toNat)

def fromU8 : UInt8 → Except CoreError MsgType
  | 0x01 => .ok initializeRequest
  | 0x02 => .ok initializeResult
  | 0x03 => .ok listTools
  | 0x04 => .ok listToolsResult
  | 0x05 => .ok callTool
  | 0x06 => .ok callToolResult
  | 0x07 => .ok ping
  | 0x08 => .ok pong
  | 0x09 => .ok auth
  | 0x0A => .ok authResult
  | 0x0B => .ok shmSetup
  | 0x0C => .ok shmSetupResult
  | 0x0D => .ok listResources
  | 0x0E => .ok listResourcesResult
  | 0x0F => .ok readResource
  | 0x10 => .ok readResourceResult
  | 0x11 => .ok listPrompts
  | 0x12 => .ok listPromptsResult
  | 0x13 => .ok getPrompt
  | 0x14 => .ok getPromptResult
  | 0x15 => .ok cancel
  | 0x16 => .ok progress
  | 0x17 => .ok subscribeResource
  | 0x18 => .ok subscribeResourceResult
  | 0x19 => .ok unsubscribeResource
  | 0x1A => .ok resourceUpdated
  | 0x1B => .ok resourceListChanged
  | 0x7F => .ok error
  | other => .error (.codec ("unknown msg type " ++ hexText other))

@[simp] theorem fromU8_toU8 (msgType : MsgType) : fromU8 msgType.toU8 = .ok msgType := by
  cases msgType <;> rfl

theorem toU8_injective : Function.Injective toU8 := by
  intro left right h
  have hok : Except.ok (ε := CoreError) left = .ok right := by
    rw [← fromU8_toU8 left, h, fromU8_toU8]
  exact Except.ok.inj hok

end MsgType

/-! ### Frames -/

structure FrameHeader where
  flags : FrameFlags
  msgType : MsgType
  requestId : UInt64
  payloadLen : UInt32
  deriving DecidableEq, Repr

structure Frame where
  header : FrameHeader
  payload : Bytes
  deriving DecidableEq, Repr

namespace Frame

/-- `payload.len() as u32` keeps the low 32 bits of the length. -/
def lenU32 (payload : Bytes) : UInt32 := UInt32.ofNat payload.length

def new (msgType : MsgType) (requestId : UInt64) (payload : Bytes) : Frame where
  header := ⟨.none, msgType, requestId, lenU32 payload⟩
  payload := payload

/-- The first 17 bytes `encode` writes. The length field is taken from the payload, not from the
header. -/
def headerBytes (frame : Frame) : Bytes :=
  toLE 2 frameMagic ++
    (protocolVersion :: frame.header.flags.bits :: frame.header.msgType.toU8 ::
      (toLE 8 frame.header.requestId.toNat ++ toLE 4 (lenU32 frame.payload).toNat))

/-- The bytes `encode` appends to its buffer. -/
def encode (frame : Frame) : Bytes := frame.headerBytes ++ frame.payload

/-- Takes one complete frame off the front of the buffer. The second component is the buffer
afterwards: it is advanced only together with a returned frame. -/
def decode (buf : Bytes) : Except CoreError (Option Frame) × Bytes :=
  if buf.length < headerLen then (.ok .none, buf)
  else if ofLE (buf.take 2) ≠ frameMagic then (.error .badMagic, buf)
  else if buf.getD 2 0 ≠ protocolVersion then (.error (.badVersion (buf.getD 2 0)), buf)
  else
    let payloadLen := ofLE ((buf.drop 13).take 4)
    if maxFrameLen < payloadLen then (.error (.frameTooLarge payloadLen), buf)
    else if buf.length < headerLen + payloadLen then (.ok .none, buf)
    else
      match MsgType.fromU8 (buf.getD 4 0) with
      | .error e => (.error e, buf)
      | .ok msgType =>
          let header : FrameHeader := {
            flags := ⟨buf.getD 3 0⟩
            msgType := msgType
            requestId := UInt64.ofNat (ofLE ((buf.drop 5).take 8))
            payloadLen := UInt32.ofNat payloadLen }
          (.ok (some ⟨header, (buf.drop headerLen).take payloadLen⟩),
            buf.drop (headerLen + payloadLen))

/-- A frame the code builds: its header states the length of its payload, and the receiver's
limit is met. -/
structure WellFormed (frame : Frame) : Prop where
  payloadLen_eq : frame.header.payloadLen = lenU32 frame.payload
  length_le : frame.payload.length ≤ maxFrameLen

instance (frame : Frame) : Decidable frame.WellFormed :=
  decidable_of_iff (frame.header.payloadLen = lenU32 frame.payload ∧
      frame.payload.length ≤ maxFrameLen) ⟨fun h => ⟨h.1, h.2⟩, fun h => ⟨h.1, h.2⟩⟩

end Frame

end Ohmcp
