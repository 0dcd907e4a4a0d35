import Mathlib.Data.Nat.Digits.Lemmas

/-!
# Numerals

Positional numerals in radix two to thirty-six, most significant digit first.
Digits above nine are letters, printed in lower case and read in either case.
-/

namespace BoonCircuit.Lib.Numeral

open List Nat

/-- The value of a digit; other characters have a value above every radix. -/
def digitValue (letter : Char) : Nat :=
  if '0' ≤ letter ∧ letter ≤ '9' then letter.toNat - 48
  else if 'a' ≤ letter ∧ letter ≤ 'z' then letter.toNat - 97 + 10
  else if 'A' ≤ letter ∧ letter ≤ 'Z' then letter.toNat - 65 + 10
  else 255

/-- The lower-case digit of a value below thirty-six. -/
def digitChar (value : Nat) : Char :=
  if value < 10 then Char.ofNat (48 + value) else Char.ofNat (87 + value)

/-- The numeral of a number, without leading zeros. -/
def numeral (radix value : Nat) : List Char :=
  if value = 0 then ['0'] else (Nat.digits radix value).reverse.map digitChar

/-- The number spelled by digits. -/
def valueOf (radix : Nat) (text : List Char) : Nat :=
  text.foldl (fun value letter => value * radix + digitValue letter) 0

variable {value : Nat} {text : List Char}

theorem digitValue_digitChar (small : value < 36) : digitValue (digitChar value) = value := by
  have checked : ∀ digit : Fin 36, digitValue (digitChar digit) = digit := by decide
  exact checked ⟨value, small⟩

@[simp]
theorem valueOf_nil (radix : Nat) : valueOf radix [] = 0 :=
  rfl

theorem valueOf_append_singleton (radix : Nat) (text : List Char) (letter : Char) :
    valueOf radix (text ++ [letter]) = valueOf radix text * radix + digitValue letter := by
  simp [valueOf]

/-- The value of a concatenation shifts the first part by the length of the second. -/
theorem valueOf_append (radix : Nat) (left right : List Char) :
    valueOf radix (left ++ right) =
      valueOf radix left * radix ^ right.length + valueOf radix right := by
  induction right using reverseRecOn with
  | nil => simp
  | append_singleton right letter ih =>
    rw [← append_assoc, valueOf_append_singleton, ih, valueOf_append_singleton, length_append,
      length_singleton]
    ring

@[simp]
theorem valueOf_replicate_zero (radix count : Nat) :
    valueOf radix (List.replicate count '0') = 0 := by
  induction count with
  | zero => rfl
  | succ count ih =>
    rw [replicate_succ', valueOf_append_singleton, ih]
    simp [digitValue]

theorem valueOf_reverse_map_digitChar {radix : Nat} (digits : List Nat)
    (small : ∀ digit ∈ digits, digit < 36) :
    valueOf radix (digits.reverse.map digitChar) = Nat.ofDigits radix digits := by
  induction digits with
  | nil => rfl
  | cons digit digits ih =>
    rw [forall_mem_cons] at small
    rw [reverse_cons, map_append, map_singleton, valueOf_append_singleton,
      ih small.2, digitValue_digitChar small.1, ofDigits_cons]
    ring

section Radix

variable {radix : Nat} (radixGe : 2 ≤ radix) (radixLe : radix ≤ 36)

include radixGe radixLe in
/-- Reading a printed numeral returns the number. -/
theorem valueOf_numeral (value : Nat) : valueOf radix (numeral radix value) = value := by
  unfold numeral
  split
  · rename_i isZero
    rw [isZero]
    exact valueOf_replicate_zero radix 1
  · rw [valueOf_reverse_map_digitChar, ofDigits_digits]
    intro digit member
    exact (digits_lt_base radixGe member).trans_le radixLe

variable {letter : Char}

include radixGe radixLe in
/-- A numeral is made of digits of its radix. -/
theorem digitValue_lt_of_mem_numeral
    (member : letter ∈ numeral radix value) : digitValue letter < radix := by
  unfold numeral at member
  split at member
  · rw [mem_singleton] at member
    subst member
    change 0 < radix
    omega
  · rw [mem_map] at member
    obtain ⟨digit, inDigits, rfl⟩ := member
    have small : digit < radix := digits_lt_base radixGe (mem_reverse.mp inDigits)
    rw [digitValue_digitChar (by omega)]
    exact small

include radixGe radixLe in
theorem lowerCase_of_mem_numeral
    (member : letter ∈ numeral radix value) : ¬ ('A' ≤ letter ∧ letter ≤ 'Z') := by
  unfold numeral at member
  split at member
  · rw [mem_singleton] at member
    subst member
    decide
  · rw [mem_map] at member
    obtain ⟨digit, inDigits, rfl⟩ := member
    have small : digit < radix := digits_lt_base radixGe (mem_reverse.mp inDigits)
    have checked : ∀ digit : Fin 36, ¬ ('A' ≤ digitChar digit ∧ digitChar digit ≤ 'Z') := by
      decide
    exact checked ⟨digit, small.trans_le radixLe⟩

theorem numeral_ne_nil (value : Nat) : numeral radix value ≠ [] := by
  unfold numeral
  split
  · simp
  · rename_i nonzero
    simp [digits_ne_nil_iff_ne_zero, nonzero]

end Radix

/-- An ASCII digit. -/
def isAsciiDigit (letter : Char) : Bool :=
  '0' ≤ letter ∧ letter ≤ '9'

theorem isAsciiDigit_iff : isAsciiDigit letter ↔ digitValue letter < 10 := by
  unfold isAsciiDigit digitValue
  rw [decide_eq_true_iff]
  split
  · rename_i digit
    simp only [digit, and_self, true_iff]
    have high : letter.toNat ≤ 57 := UInt32.le_iff_toNat_le.mp digit.2
    omega
  · rename_i other
    simp only [other, false_iff]
    split
    · omega
    · split <;> omega

theorem digitValue_eq_zero_iff (digit : isAsciiDigit letter) :
    digitValue letter = 0 ↔ letter = '0' := by
  unfold isAsciiDigit at digit
  rw [decide_eq_true_iff] at digit
  have low : 48 ≤ letter.toNat := UInt32.le_iff_toNat_le.mp digit.1
  rw [digitValue, if_pos digit]
  constructor
  · intro isZero
    have code : letter.toNat = '0'.toNat := by
      change letter.toNat = 48
      omega
    exact Char.toNat_inj.mp code
  · rintro rfl
    rfl

/-- A numeral made of decimal digits spells zero exactly when it is all zeros. -/
theorem valueOf_eq_zero_iff (digits : ∀ letter ∈ text, isAsciiDigit letter) :
    valueOf 10 text = 0 ↔ ∀ letter ∈ text, letter = '0' := by
  induction text using reverseRecOn with
  | nil => simp
  | append_singleton text letter ih =>
    simp only [forall_mem_append, forall_mem_singleton] at digits ⊢
    rw [valueOf_append_singleton, ← ih digits.1]
    rw [← digitValue_eq_zero_iff digits.2]
    omega

theorem valueOf_lt {radix : Nat} (digits : ∀ letter ∈ text, digitValue letter < radix) :
    valueOf radix text < radix ^ text.length := by
  induction text using reverseRecOn with
  | nil => simp
  | append_singleton text letter ih =>
    simp only [forall_mem_append, forall_mem_singleton] at digits
    have front := ih digits.1
    rw [valueOf_append_singleton, length_append]
    calc valueOf radix text * radix + digitValue letter
        < valueOf radix text * radix + radix := by omega
      _ = (valueOf radix text + 1) * radix := by ring
      _ ≤ radix ^ text.length * radix := mul_le_mul_right _ front

end BoonCircuit.Lib.Numeral
