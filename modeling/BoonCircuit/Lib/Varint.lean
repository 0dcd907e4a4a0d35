import Mathlib.Algebra.Group.Nat.Defs
import Mathlib.Data.Nat.Basic

/-!
# Minimal little-endian base-128 numbers

Seven payload bits per byte, least significant group first; the high bit of a
byte says that another byte follows.  `encode` fills at most the given number
of slots and stops as soon as nothing remains, so the last byte of a string of
several bytes is never zero.
-/

namespace BoonCircuit.Lib.Varint

open Nat

/-- The minimal base-128 string of a number, in at most `slots` bytes. -/
def encode : Nat → Nat → List UInt8
  | 0, _ => []
  | slots + 1, value =>
    if value / 128 = 0 then [UInt8.ofNat (value % 128)]
    else UInt8.ofNat (value % 128 + 128) :: encode slots (value / 128)

theorem encode_of_lt {slots value : Nat} (small : value < 128) :
    encode (slots + 1) value = [UInt8.ofNat value] := by
  rw [encode, if_pos (div_eq_of_lt small), mod_eq_of_lt small]

theorem encode_of_le {slots value : Nat} (large : 128 ≤ value) :
    encode (slots + 1) value = UInt8.ofNat (value % 128 + 128) :: encode slots (value / 128) := by
  rw [encode, if_neg (ne_of_gt (div_pos large (by decide)))]

/-- Every number is written with at least one byte. -/
theorem encode_ne_nil (slots value : Nat) : encode (slots + 1) value ≠ [] := by
  rw [encode]
  split <;> simp

theorem length_encode_le (slots value : Nat) : (encode slots value).length ≤ slots := by
  induction slots generalizing value with
  | zero => rfl
  | succ slots ih =>
    rw [encode]
    split
    · simp
    · simpa using ih (value / 128)

theorem toNat_and_payload (byte : UInt8) : (byte &&& 0x7f).toNat = byte.toNat % 128 := by
  exact and_two_pow_sub_one_eq_mod byte.toNat 7

set_option maxRecDepth 4000 in
theorem and_continuation_eq_zero_iff (byte : UInt8) : byte &&& 0x80 = 0 ↔ byte.toNat < 128 := by
  have table : ∀ index : Fin 256, index.val &&& 128 = 0 ↔ index.val < 128 := by decide
  rw [← UInt8.toNat_inj, UInt8.toNat_and]
  exact table ⟨byte.toNat, byte.toNat_lt⟩

theorem toNat_ofNat_continued (value : Nat) :
    (UInt8.ofNat (value % 128 + 128)).toNat = value % 128 + 128 := by
  exact mod_eq_of_lt (by omega)

theorem toNat_ofNat_of_lt {value : Nat} (small : value < 128) :
    (UInt8.ofNat value).toNat = value := by
  exact mod_eq_of_lt (by omega)

/-- Adding a payload above the bits read so far is a bitwise or. -/
theorem or_shiftLeft_eq {value payload shift : Nat} (below : value < 2 ^ shift) :
    value ||| payload <<< shift = value + payload * 2 ^ shift := by
  rw [Nat.shiftLeft_eq, Nat.or_comm, Nat.mul_comm payload,
    ← two_pow_add_eq_or_of_lt below, add_comm]

end BoonCircuit.Lib.Varint
