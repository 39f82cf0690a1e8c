import Ohmcp.Frame
import Ohmcp.Circular
import Ohmcp.Transition

/-! The shared-memory ring: one memfd with two `u64` cursors, records that stay physically
contiguous, a producer that skips to the next lap and a consumer that moves the tail past the
record it reads. -/

open LittleEndian Circular

namespace Ohmcp

/-- Release-profile `u64` arithmetic. -/
def wrap64 (n : Nat) : Nat := n % 2 ^ 64

def wrapSub64 (left right : Nat) : Nat := wrap64 (left + (2 ^ 64 - right))

theorem wrap64_of_lt {n : Nat} (h : n < 2 ^ 64) : wrap64 n = n := Nat.mod_eq_of_lt h

theorem wrapSub64_of_le {left right : Nat} (hle : right ≤ left) (hlt : left < 2 ^ 64) :
    wrapSub64 left right = left - right := by
  unfold wrapSub64 wrap64
  omega

def defaultShmCap : Nat := 4 * 1024 * 1024

theorem defaultShmCap_pos : 0 < defaultShmCap := by decide

def maxShmCap : Nat := 64 * 1024 * 1024
def shmThreshold : Nat := 16 * 1024

/-- The mapped region: both cursors and the data cells behind the header. -/
structure ShmRing where
  cap : Nat
  head : Nat
  tail : Nat
  mem : Nat → UInt8
  cap_pos : 0 < cap

namespace ShmRing

/-- A fresh memfd is zero-filled. -/
def create (cap : Nat) (hcap : 0 < cap) : ShmRing := ⟨cap, 0, 0, fun _ => 0, hcap⟩

/-- Where `try_write` puts a record of `len` bytes: at the head, or at the start of the next lap
when the rest of this lap is too short. -/
def writePos (ring : ShmRing) (len : Nat) : Nat :=
  if ring.cap < wrap64 (ring.head % ring.cap + len) then
    wrap64 (ring.head + (ring.cap - ring.head % ring.cap))
  else ring.head

/-- The copy into the data cells and the store to the head. -/
def written (ring : ShmRing) (pos : Nat) (data : Bytes) : ShmRing :=
  { ring with
    mem := store ring.mem (pos % ring.cap) data
    head := wrap64 (pos + data.length) }

/-- The producer: the logical offset of the record, or nothing when there is no room. -/
def tryWrite (ring : ShmRing) (data : Bytes) : Option Nat × ShmRing :=
  if data.length = 0 ∨ ring.cap < data.length then (none, ring)
  else
    let pos := ring.writePos data.length
    if ring.cap < wrapSub64 (wrap64 (pos + data.length)) ring.tail then (none, ring)
    else (some pos, ring.written pos data)

/-- The consumer: the bytes of the record, whose end becomes the tail. -/
def readRelease (ring : ShmRing) (offset len : Nat) : Option Bytes × ShmRing :=
  if len = 0 ∨ ring.cap < len ∨ ring.cap < wrap64 (offset % ring.cap + len) then (none, ring)
  else if ring.head < wrap64 (offset + len) then (none, ring)
  else (some (load ring.mem (offset % ring.cap) len), { ring with tail := wrap64 (offset + len) })

end ShmRing

/-- The 12 payload bytes of an `SHM_REF` frame. -/
def encodeShmRef (offset : Nat) (len : UInt32) : Bytes := toLE 8 offset ++ toLE 4 len.toNat

def decodeShmRef (payload : Bytes) : Option (Nat × UInt32) :=
  if payload.length ≠ 12 then none
  else some (ofLE (payload.take 8), UInt32.ofNat (ofLE (payload.drop 8)))

theorem decodeShmRef_encodeShmRef {offset : Nat} (hoffset : offset < 2 ^ 64) (len : UInt32) :
    decodeShmRef (encodeShmRef offset len) = some (offset, len) := by
  have hlen : (encodeShmRef offset len).length = 12 := by simp [encodeShmRef]
  rw [decodeShmRef, if_neg (not_not.mpr hlen), encodeShmRef,
    List.take_left' (length_toLE _ _), List.drop_left' (length_toLE _ _),
    ofLE_toLE_of_lt hoffset, ofLE_toLE_of_lt len.toNat_lt, UInt32.ofNat_toNat]

namespace ShmRing

/-! ### Records -/

structure Record where
  offset : Nat
  data : Bytes

namespace Record

def len (record : Record) : Nat := record.data.length

/-- The logical offset just behind the record. -/
def stop (record : Record) : Nat := record.offset + record.data.length

end Record

/-- The ring still holds the bytes that were written for a record. -/
structure Holds (ring : ShmRing) (record : Record) : Prop where
  nonempty : 0 < record.data.length
  contiguous : Contiguous ring.cap record.offset record.data.length
  stop_le : record.stop ≤ ring.head
  bytes : load ring.mem (record.offset % ring.cap) record.data.length = record.data

variable {ring : ShmRing}

/-- Reading a record the ring holds returns it, wherever the tail stands, and moves only the
tail. -/
theorem readRelease_of_holds {record : Record} (hrecord : ring.Holds record)
    (hhead : ring.head < 2 ^ 64) :
    ring.readRelease record.offset record.data.length =
      (some record.data, { ring with tail := record.stop }) := by
  have hpos := hrecord.nonempty
  have hfit := hrecord.contiguous
  have hstop := hrecord.stop_le
  unfold Contiguous at hfit
  unfold Record.stop at hstop
  have hmod := Nat.mod_le record.offset ring.cap
  unfold readRelease
  rw [wrap64_of_lt (n := record.offset % ring.cap + record.data.length) (by omega),
    wrap64_of_lt (n := record.offset + record.data.length) (by omega),
    if_neg (by omega), if_neg (by omega), hrecord.bytes]
  rfl

/-- No arithmetic of a write of `len` bytes reaches the wrap. -/
def CursorFits (ring : ShmRing) (len : Nat) : Prop := nextFit ring.cap ring.head len + len < 2 ^ 64

instance (ring : ShmRing) (len : Nat) : Decidable (ring.CursorFits len) :=
  inferInstanceAs (Decidable (_ < _))

theorem writePos_eq {len : Nat} (hfits : ring.CursorFits len) :
    ring.writePos len = nextFit ring.cap ring.head len := by
  have hle := le_nextFit ring.cap ring.head len
  have hmod := Nat.mod_le ring.head ring.cap
  unfold CursorFits at hfits
  unfold writePos
  rw [wrap64_of_lt (by omega)]
  unfold nextFit at hfits ⊢
  split
  · rw [if_pos ‹_›] at hfits
    exact wrap64_of_lt (by omega)
  · rfl

/-- Below the wrap, a write succeeds exactly when the record is not empty and its end stays
within one capacity of the tail. -/
theorem tryWrite_eq {data : Bytes} (hfits : ring.CursorFits data.length)
    (htail : ring.tail ≤ ring.head) :
    ring.tryWrite data =
      if data.length = 0 ∨ ring.cap < data.length ∨
          ring.tail + ring.cap < nextFit ring.cap ring.head data.length + data.length then
        (none, ring)
      else (some (nextFit ring.cap ring.head data.length),
        ring.written (nextFit ring.cap ring.head data.length) data) := by
  have hle := le_nextFit ring.cap ring.head data.length
  have hlt : nextFit ring.cap ring.head data.length + data.length < 2 ^ 64 := hfits
  unfold tryWrite
  rw [writePos_eq hfits]
  dsimp only
  rw [wrap64_of_lt hlt, wrapSub64_of_le (by omega) hlt]
  split_ifs <;> first | rfl | omega

theorem tryWrite_some {data : Bytes} {pos : Nat} (hfits : ring.CursorFits data.length)
    (htail : ring.tail ≤ ring.head) (h : (ring.tryWrite data).1 = some pos) :
    pos = nextFit ring.cap ring.head data.length ∧ 0 < data.length ∧
      Contiguous ring.cap pos data.length ∧ pos + data.length ≤ ring.tail + ring.cap ∧
      pos + data.length < 2 ^ 64 ∧ (ring.tryWrite data).2 = ring.written pos data := by
  rw [tryWrite_eq hfits htail] at h ⊢
  split_ifs at h ⊢ with hfull
  simp only [not_or, Nat.not_lt] at hfull
  obtain ⟨hzero, hcap, hroom⟩ := hfull
  cases Option.some.inj h
  exact ⟨rfl, Nat.pos_of_ne_zero hzero, contiguous_nextFit ring.cap_pos hcap, hroom, hfits, rfl⟩

/-- A record there is room for goes to the first offset that fits. -/
theorem tryWrite_of_room {data : Bytes} {pos : Nat}
    (hpos : nextFit ring.cap ring.head data.length = pos) (hnonempty : 0 < data.length)
    (hcap : data.length ≤ ring.cap) (hroom : pos + data.length ≤ ring.tail + ring.cap)
    (hlt : pos + data.length < 2 ^ 64) (htail : ring.tail ≤ ring.head) :
    ring.CursorFits data.length ∧ ring.tryWrite data = (some pos, ring.written pos data) := by
  have hfits : ring.CursorFits data.length := by
    rw [CursorFits, hpos]
    exact hlt
  refine ⟨hfits, ?_⟩
  rw [tryWrite_eq hfits htail, hpos, if_neg (by omega)]

/-- No arithmetic of a write that succeeds reaches the wrap. -/
def WriteFits (ring : ShmRing) (data : Bytes) : Prop :=
  (ring.tryWrite data).1.isSome = true → ring.CursorFits data.length

instance (ring : ShmRing) (data : Bytes) : Decidable (ring.WriteFits data) :=
  inferInstanceAs (Decidable (_ → _))

theorem WriteFits.cursorFits {data : Bytes} {pos : Nat} (hfits : ring.WriteFits data)
    (hwrite : (ring.tryWrite data).1 = some pos) : ring.CursorFits data.length :=
  hfits (Option.isSome_of_mem hwrite)

theorem tryWrite_none {data : Bytes} (h : (ring.tryWrite data).1 = none) :
    (ring.tryWrite data).2 = ring := by
  unfold tryWrite at h ⊢
  dsimp only at h ⊢
  split_ifs at h ⊢ <;> rfl

@[simp] theorem cap_tryWrite (ring : ShmRing) (data : Bytes) :
    (ring.tryWrite data).2.cap = ring.cap := by
  unfold tryWrite
  dsimp only
  split_ifs <;> rfl

@[simp] theorem cap_readRelease (ring : ShmRing) (offset len : Nat) :
    (ring.readRelease offset len).2.cap = ring.cap := by
  unfold readRelease
  split_ifs <;> rfl

section Written

variable {data : Bytes} {pos : Nat}

@[simp] theorem cap_written : (ring.written pos data).cap = ring.cap := rfl
@[simp] theorem tail_written : (ring.written pos data).tail = ring.tail := rfl

theorem head_written (h : pos + data.length < 2 ^ 64) :
    (ring.written pos data).head = pos + data.length := wrap64_of_lt h

theorem holds_written (hpos : 0 < data.length) (hfit : Contiguous ring.cap pos data.length)
    (hlt : pos + data.length < 2 ^ 64) : (ring.written pos data).Holds ⟨pos, data⟩ where
  nonempty := hpos
  contiguous := hfit
  stop_le := (head_written hlt).ge
  bytes := load_store_self _ _ _

/-- A record survives a write to other cells. -/
theorem Holds.written {record : Record} (hrecord : ring.Holds record)
    (hhead : ring.head ≤ pos) (hlt : pos + data.length < 2 ^ 64)
    (hapart : Apart ring.cap pos data.length record.offset record.data.length) :
    (ring.written pos data).Holds record where
  nonempty := hrecord.nonempty
  contiguous := hrecord.contiguous
  stop_le := by
    rw [head_written hlt]
    have := hrecord.stop_le
    omega
  bytes := by
    refine (load_store_of_disjoint _ _ _ _ _ ?_).trans hrecord.bytes
    exact hapart

end Written

/-- The tail plays no part in what the ring holds. -/
theorem Holds.setTail {record : Record} (hrecord : ring.Holds record) (tail : Nat) :
    Holds { ring with tail := tail } record :=
  ⟨hrecord.nonempty, hrecord.contiguous, hrecord.stop_le, hrecord.bytes⟩

end ShmRing

end Ohmcp
