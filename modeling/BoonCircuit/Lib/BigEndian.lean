import Mathlib.Data.Nat.Digits.Lemmas
import Mathlib.Data.Nat.Size

/-!
# Big-endian byte strings of natural numbers

A natural number is written in base 256, most significant byte first.  The
minimal form drops every leading zero byte, so zero is the empty string; the
fixed form keeps exactly the requested number of bytes and drops what does not
fit.  Both are inverted by the same reading function.
-/

namespace BoonCircuit.Lib.BigEndian

open List Nat

/-- The number denoted by a big-endian byte string. -/
def ofBytes (bytes : List UInt8) : Nat :=
  bytes.foldl (fun value byte => value * 256 + byte.toNat) 0

/-- The shortest big-endian byte string of a number. -/
def toBytes (value : Nat) : List UInt8 :=
  (Nat.digits 256 value).reverse.map UInt8.ofNat

/-- The low `width` bytes of a number, most significant first. -/
def toFixedBytes : Nat → Nat → List UInt8
  | 0, _ => []
  | width + 1, value => toFixedBytes width (value / 256) ++ [UInt8.ofNat value]

@[simp]
theorem ofBytes_nil : ofBytes [] = 0 :=
  rfl

theorem ofBytes_append_singleton (bytes : List UInt8) (byte : UInt8) :
    ofBytes (bytes ++ [byte]) = ofBytes bytes * 256 + byte.toNat := by
  simp [ofBytes]

/-- Reading is Mathlib's digit evaluation on the reversed bytes. -/
theorem ofBytes_eq_ofDigits (bytes : List UInt8) :
    ofBytes bytes = Nat.ofDigits 256 (bytes.reverse.map UInt8.toNat) := by
  induction bytes using reverseRecOn with
  | nil => rfl
  | append_singleton bytes byte ih =>
    rw [ofBytes_append_singleton, ih]
    simp [ofDigits_cons]
    ring

private theorem map_toNat_map_ofNat (value : Nat) :
    ((Nat.digits 256 value).map UInt8.ofNat).map UInt8.toNat = Nat.digits 256 value := by
  rw [map_map]
  conv_rhs => rw [← map_id (digits 256 value)]
  apply map_congr_left
  intro digit digitMem
  have small : digit < 256 := digits_lt_base (by norm_num) digitMem
  simpa [UInt8.toNat_ofNat'] using mod_eq_of_lt small

@[simp]
theorem ofBytes_toBytes (value : Nat) : ofBytes (toBytes value) = value := by
  rw [ofBytes_eq_ofDigits, toBytes, ← map_reverse, reverse_reverse,
    map_toNat_map_ofNat, ofDigits_digits]

variable {bytes : List UInt8} {value count : Nat}

/-- A byte string without a leading zero is the minimal string of its number. -/
theorem toBytes_ofBytes (minimal : bytes.head? ≠ some 0) : toBytes (ofBytes bytes) = bytes := by
  have digits :
      digits 256 (ofDigits 256 (bytes.reverse.map UInt8.toNat)) =
        bytes.reverse.map UInt8.toNat := by
    apply digits_ofDigits 256 (by norm_num)
    · intro digit digitMem
      obtain ⟨byte, _, rfl⟩ := mem_map.mp digitMem
      exact byte.toNat_lt
    · intro nonempty
      cases bytes with
      | nil => simp at nonempty
      | cons =>
        intro zero
        apply minimal
        simpa [← UInt8.toNat_inj] using zero
  rw [toBytes, ofBytes_eq_ofDigits, digits]
  simp [Function.comp_def]

/-- Minimal strings never start with a zero byte. -/
theorem head?_toBytes (value : Nat) : (toBytes value).head? ≠ some 0 := by
  intro leading
  rw [toBytes, head?_map, head?_reverse, Option.map_eq_some_iff] at leading
  obtain ⟨digit, last, zero⟩ := leading
  have digitMem : digit ∈ digits 256 value := mem_of_getLast? last
  have small : digit < 256 := digits_lt_base (by norm_num) digitMem
  have nonzero : value ≠ 0 := by
    rintro rfl
    simp at digitMem
  have digitZero : digit = 0 := by
    have := congrArg UInt8.toNat zero
    simpa [UInt8.toNat_ofNat', mod_eq_of_lt small] using this
  have nonemptyDigits : digits 256 value ≠ [] := digits_ne_nil_iff_ne_zero.mpr nonzero
  apply getLast_digit_ne_zero 256 nonzero
  rw [getLast?_eq_some_getLast nonemptyDigits] at last
  exact (Option.some.inj last).trans digitZero

/-- Minimal strings are exactly the strings without a leading zero byte. -/
theorem toBytes_eq_iff : toBytes value = bytes ↔ bytes.head? ≠ some 0 ∧ ofBytes bytes = value := by
  constructor
  · rintro rfl
    exact ⟨head?_toBytes value, ofBytes_toBytes value⟩
  · rintro ⟨minimal, rfl⟩
    exact toBytes_ofBytes minimal

theorem toBytes_injective : Function.Injective toBytes :=
  Function.LeftInverse.injective ofBytes_toBytes

@[simp]
theorem toBytes_eq_nil_iff : toBytes value = [] ↔ value = 0 := by
  simp [toBytes, digits_eq_nil_iff_eq_zero]

/-- A number of at most `8 * count` bits needs at most `count` bytes. -/
theorem length_toBytes_le_iff : (toBytes value).length ≤ count ↔ value < 256 ^ count := by
  simp [toBytes, digits_length_le_iff (b := 256) (by norm_num)]

theorem length_toBytes_two_pow_le {bits : Nat} (narrow : bits < 8 * count) :
    (toBytes (2 ^ bits)).length ≤ count := by
  have base : (256 : Nat) = 2 ^ 8 := by norm_num
  rw [length_toBytes_le_iff, base, ← pow_mul]
  exact Nat.pow_lt_pow_right Nat.one_lt_two narrow

@[simp]
theorem length_toFixedBytes (width value : Nat) : (toFixedBytes width value).length = width := by
  induction width generalizing value with
  | zero => rfl
  | succ width ih => simp [toFixedBytes, ih]

/-- Reading a fixed-width string returns the number modulo its capacity. -/
theorem ofBytes_toFixedBytes (width value : Nat) :
    ofBytes (toFixedBytes width value) = value % 256 ^ width := by
  induction width generalizing value with
  | zero => simp [toFixedBytes, mod_one]
  | succ width ih =>
    have capacity : 256 ^ (width + 1) = 256 * 256 ^ width := pow_succ' 256 width
    rw [toFixedBytes, ofBytes_append_singleton, ih, UInt8.toNat_ofNat', capacity, mod_mul]
    ring

/-- Numbers within the capacity are determined by their fixed-width string. -/
theorem toFixedBytes_inj {width left right : Nat} (leftFits : left < 256 ^ width)
    (rightFits : right < 256 ^ width)
    (same : toFixedBytes width left = toFixedBytes width right) : left = right := by
  have values := congrArg ofBytes same
  rwa [ofBytes_toFixedBytes, ofBytes_toFixedBytes, mod_eq_of_lt leftFits,
    mod_eq_of_lt rightFits] at values

/-- Byte strings of one length are determined by the number they denote. -/
theorem ofBytes_injOn {left right : List UInt8} (sameLength : left.length = right.length)
    (same : ofBytes left = ofBytes right) : left = right := by
  induction left using reverseRecOn generalizing right with
  | nil => exact (length_eq_zero_iff.mp sameLength.symm).symm
  | append_singleton left byte ih =>
    induction right using reverseRecOn with
    | nil => simp at sameLength
    | append_singleton right other =>
      rw [ofBytes_append_singleton, ofBytes_append_singleton] at same
      have byteLt := byte.toNat_lt
      have otherLt := other.toNat_lt
      have lasts : byte = other := UInt8.toNat_inj.mp (by omega)
      have heads : left = right := ih (by simpa using sameLength) (by omega)
      rw [heads, lasts]

/-- The leading byte carries the weight of all the bytes behind it. -/
theorem ofBytes_cons (byte : UInt8) (bytes : List UInt8) :
    ofBytes (byte :: bytes) = byte.toNat * 256 ^ bytes.length + ofBytes bytes := by
  induction bytes using reverseRecOn with
  | nil => simp [ofBytes]
  | append_singleton bytes last ih =>
    rw [← cons_append, ofBytes_append_singleton, ih, ofBytes_append_singleton, length_append,
      length_singleton]
    ring

/-- A byte string denotes a number within its capacity. -/
theorem ofBytes_lt (bytes : List UInt8) : ofBytes bytes < 256 ^ bytes.length := by
  induction bytes using reverseRecOn with
  | nil => simp
  | append_singleton bytes byte =>
    have byteLt := byte.toNat_lt
    rw [ofBytes_append_singleton, length_append, length_singleton]
    omega

end BoonCircuit.Lib.BigEndian
