import Mathlib.Data.Nat.ModEq
import Mathlib.Data.Fintype.Basic
import Mathlib.Tactic.Ring

/-! Fixed-width little-endian numbers over bytes, and the byte facts a binary format needs: the
two directions of the codec, and statements over all bytes checked by enumeration. -/

/-- A statement over all bytes is decided on the 256 of them. -/
instance decidableForallUInt8 (p : UInt8 → Prop) [DecidablePred p] : Decidable (∀ byte, p byte) :=
  decidable_of_iff (∀ i : Fin 256, p (UInt8.ofFin i)) ⟨fun h byte => h byte.toFin, fun h _ => h _⟩

namespace LittleEndian

/-- The `width` low bytes of `value`, least significant first. -/
def toLE : Nat → Nat → List UInt8
  | 0, _ => []
  | width + 1, value => UInt8.ofNat value :: toLE width (value / 256)

def ofLE : List UInt8 → Nat
  | [] => 0
  | byte :: rest => byte.toNat + 256 * ofLE rest

@[simp] theorem length_toLE (width value : Nat) : (toLE width value).length = width := by
  induction width generalizing value with
  | zero => rfl
  | succ width ih => rw [toLE, List.length_cons, ih]

/-- Reading back a written number loses what the width cannot hold. -/
theorem ofLE_toLE (width value : Nat) : ofLE (toLE width value) = value % 256 ^ width := by
  induction width generalizing value with
  | zero => rw [toLE, ofLE, pow_zero, Nat.mod_one]
  | succ width ih =>
      have hbyte : (UInt8.ofNat value).toNat = value % 256 := UInt8.toNat_ofNat'
      rw [toLE, ofLE, ih, hbyte, Nat.pow_succ', Nat.mod_mul]

theorem ofLE_toLE_of_lt {width value : Nat} (h : value < 256 ^ width) :
    ofLE (toLE width value) = value := by
  rw [ofLE_toLE, Nat.mod_eq_of_lt h]

theorem ofLE_lt (bytes : List UInt8) : ofLE bytes < 256 ^ bytes.length := by
  induction bytes with
  | nil => exact Nat.one_pos
  | cons byte rest ih =>
      have hbyte := byte.toNat_lt
      rw [ofLE, List.length_cons, pow_succ]
      omega

theorem toLE_ofLE (bytes : List UInt8) : toLE bytes.length (ofLE bytes) = bytes := by
  induction bytes with
  | nil => rfl
  | cons byte rest ih =>
      have hbyte := byte.toNat_lt
      have hhead : UInt8.ofNat (byte.toNat + 256 * ofLE rest) = byte := by
        apply UInt8.toNat_inj.mp
        rw [UInt8.toNat_ofNat']
        omega
      have htail : (byte.toNat + 256 * ofLE rest) / 256 = ofLE rest := by omega
      rw [List.length_cons, ofLE, toLE, hhead, htail, ih]

/-- Numbers below the wrap are determined by their bytes. -/
theorem toLE_inj_of_lt {width left right : Nat} (hleft : left < 256 ^ width)
    (hright : right < 256 ^ width) (h : toLE width left = toLE width right) : left = right := by
  rw [← ofLE_toLE_of_lt hleft, h, ofLE_toLE_of_lt hright]

end LittleEndian
