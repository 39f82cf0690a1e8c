import Ohmcp.Message

/-! Lower-case hex, and the byte-indexed decoder of the handshake fields: it slices a string at
every second byte, which panics inside a UTF-8 sequence, and hands each slice to
`u8::from_str_radix`. -/

namespace Ohmcp

/-- The bytes of a string. -/
def utf8 (s : String) : Bytes := s.toByteArray.data.toList

def hex (data : Bytes) : String :=
  String.ofList (data.flatMap fun b => [Nat.digitChar (b.toNat / 16), Nat.digitChar (b.toNat % 16)])

/-- A panic of the running task. -/
structure Panicked where
  deriving DecidableEq

def hexDigit (c : UInt8) : Option Nat :=
  if 0x30 ≤ c ∧ c ≤ 0x39 then some (c.toNat - 0x30)
  else if 0x61 ≤ c ∧ c ≤ 0x66 then some (c.toNat - 0x57)
  else if 0x41 ≤ c ∧ c ≤ 0x46 then some (c.toNat - 0x37)
  else none

/-- `u8::from_str_radix(_, 16)` on two bytes. A leading plus sign is accepted. -/
def fromStrRadix16 (first second : UInt8) : Option UInt8 :=
  if first = 0x2B then (hexDigit second).map UInt8.ofNat
  else
    match hexDigit first, hexDigit second with
    | some high, some low => some (UInt8.ofNat (16 * high + low))
    | _, _ => none

/-- A byte inside a UTF-8 sequence: no slice may start or end in front of it. -/
def isContinuation (c : UInt8) : Bool := c &&& 0xC0 == 0x80

/-- The decoding loop, one slice of two bytes after the other, up to the first that fails. -/
def unhexPairs : Bytes → Except Panicked (Option Bytes)
  | [] => .ok (some [])
  | [_] => .ok none
  | first :: second :: rest =>
      if rest.head?.any isContinuation then .error ⟨⟩
      else
        match fromStrRadix16 first second with
        | none => .ok none
        | some byte => (unhexPairs rest).map (Option.map (byte :: ·))

def unhex (s : String) : Except Panicked (Option Bytes) :=
  if (utf8 s).length % 2 ≠ 0 then .ok none else unhexPairs (utf8 s)

def unhex32 (s : String) : Except Panicked (Option Bytes32) :=
  if (utf8 s).length ≠ 64 then .ok none
  else (unhexPairs (utf8 s)).map fun bytes =>
    bytes.bind fun bytes => if h : bytes.length = 32 then some ⟨bytes, h⟩ else none

/-! ### Decoding what was encoded -/

/-- The two text bytes of a byte. -/
def hexPair (b : UInt8) : Bytes :=
  String.utf8EncodeChar (Nat.digitChar (b.toNat / 16)) ++
    String.utf8EncodeChar (Nat.digitChar (b.toNat % 16))

theorem utf8_hex (data : Bytes) : utf8 (hex data) = data.flatMap hexPair := by
  rw [utf8, hex, String.toByteArray_ofList, List.utf8Encode]
  simp only [List.flatMap_assoc, List.flatMap_cons, List.flatMap_nil, List.append_nil]
  exact List.toList_data_toByteArray

theorem hexPair_eq (b : UInt8) : ∃ first second, hexPair b = [first, second] ∧
    fromStrRadix16 first second = some b ∧ isContinuation first = false := by
  have hall : ∀ b : UInt8, hexPair b = [(hexPair b).getD 0 0, (hexPair b).getD 1 0] ∧
      fromStrRadix16 ((hexPair b).getD 0 0) ((hexPair b).getD 1 0) = some b ∧
      isContinuation ((hexPair b).getD 0 0) = false := by
    decide +kernel
  exact ⟨_, _, hall b⟩

theorem length_utf8_hex (data : Bytes) : (utf8 (hex data)).length = 2 * data.length := by
  rw [utf8_hex]
  induction data with
  | nil => rfl
  | cons b data ih =>
      obtain ⟨first, second, hpair, _⟩ := hexPair_eq b
      rw [List.flatMap_cons, hpair, List.length_append, ih, List.length_cons]
      simp only [List.length_cons, List.length_nil]
      omega

theorem unhexPairs_hexPairs (data : Bytes) :
    unhexPairs (data.flatMap hexPair) = .ok (some data) := by
  induction data with
  | nil => rfl
  | cons b data ih =>
      obtain ⟨first, second, hpair, hbyte, _⟩ := hexPair_eq b
      have hboundary : ((data.flatMap hexPair).head?.any isContinuation) = false := by
        cases data with
        | nil => rfl
        | cons c data =>
            obtain ⟨third, fourth, hpair, _, hfirst⟩ := hexPair_eq c
            rw [List.flatMap_cons, hpair]
            exact hfirst
      rw [List.flatMap_cons, hpair, List.cons_append, List.cons_append, List.nil_append,
        unhexPairs, hboundary, hbyte, ih]
      rfl

@[simp] theorem unhex_hex (data : Bytes) : unhex (hex data) = .ok (some data) := by
  have heven : ¬ (utf8 (hex data)).length % 2 ≠ 0 := by
    rw [length_utf8_hex]
    omega
  rw [unhex, if_neg heven, utf8_hex, unhexPairs_hexPairs]

@[simp] theorem unhex32_hex (key : Bytes32) : unhex32 (hex key.bytes) = .ok (some key) := by
  have hlen : ¬ (utf8 (hex key.bytes)).length ≠ 64 := by
    rw [length_utf8_hex, key.length_eq]
    omega
  rw [unhex32, if_neg hlen, utf8_hex, unhexPairs_hexPairs]
  simp only [Except.map, Option.bind_some, key.length_eq, dif_pos]

theorem hex_injective : Function.Injective hex := by
  intro left right h
  have hok : (Except.ok (ε := Panicked) (some left)) = .ok (some right) := by
    rw [← unhex_hex left, h, unhex_hex]
  exact Option.some.inj (Except.ok.inj hok)

end Ohmcp
