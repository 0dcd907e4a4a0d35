import BoonCircuit.Data.NumberConversion
import Mathlib.Data.Nat.Prime.Basic

/-!
# Texts of exact numbers

The canonical text of a number is a terminating decimal when the reduced denominator
has no prime factor besides two and five, and the reduced fraction otherwise; strict
parsing returns the number.  The text builtin prints whole numbers with a radix, a
width, a base prefix and digit groups.  Its grouping loop subtracts indices: a
subtraction below zero is an outcome of its own here.
-/

namespace BoonCircuit.Data

open Lib Numeral Checks

/-- Divides by a factor as often as possible and counts the divisions. -/
def stripFactor (factor value : Nat) : Nat × Nat :=
  if _ : 2 ≤ factor ∧ 0 < value ∧ value % factor = 0 then
    let (count, rest) := stripFactor factor (value / factor)
    (count + 1, rest)
  else (0, value)
termination_by value
decreasing_by
  rename_i divides
  exact Nat.div_lt_self divides.2.1 divides.1

/-- The decimal text of an integer. -/
def integerText (value : Int) : List Char :=
  signText (value < 0) ++ numeral 10 value.natAbs

def checkFormattedDigits (text : List Char) (profile : ExactNumberSemanticProfileV1) :
    Except ExactNumberError (List Char) :=
  let digitCount := text.countP isAsciiDigit
  if profile.maxFormattedDigits < digitCount then
    .error ⟨"exact Number formatted digit budget exceeded: " ++ toString digitCount ++ " > " ++
      toString profile.maxFormattedDigits⟩
  else .ok text

/-- Digits with leading zeros up to one more than the scale. -/
def padToScale (digits : List Char) (scale : Nat) : List Char :=
  if digits.length ≤ scale then List.replicate (scale + 1 - digits.length) '0' ++ digits
  else digits

/-- Digits with a decimal point before the last `scale` of them. -/
def insertPoint (digits : List Char) (scale : Nat) : List Char :=
  let point := digits.length - scale
  digits.take point ++ '.' :: digits.drop point

namespace ExactNumber

variable (number : ExactNumber)

def toCanonicalTextWithProfile (profile : ExactNumberSemanticProfileV1) :
    Except ExactNumberError (List Char) :=
  if number.isWhole then checkFormattedDigits (integerText number.numerator) profile
  else
    let (twos, odd) := stripFactor 2 number.denominator
    let (fives, denominator) := stripFactor 5 odd
    if denominator ≠ 1 then
      checkFormattedDigits
        (integerText number.numerator ++ '/' :: numeral 10 number.denominator) profile
    else do
      let scale := max twos fives
      reject (2 ^ 32 ≤ scale - twos) ⟨"decimal scale exceeds u32"⟩
      reject (2 ^ 32 ≤ scale - fives) ⟨"decimal scale exceeds u32"⟩
      let scaled := number.numerator.natAbs * 2 ^ (scale - twos) * 5 ^ (scale - fives)
      let digits := insertPoint (padToScale (numeral 10 scaled) scale) scale
      checkFormattedDigits (signText number.isNegative ++ digits) profile

def toCanonicalText : Except ExactNumberError (List Char) :=
  toCanonicalTextWithProfile number .default

/-- The displayed text: canonical, or the plain fraction when that is too long. -/
def display : List Char :=
  match number.toCanonicalText with
  | .ok text => text
  | .error _ => integerText number.numerator ++ '/' :: numeral 10 number.denominator

def toU64Exact : Except ExactNumberError Nat :=
  if !number.isWhole then
    .error ⟨"number `" ++ String.ofList number.display ++ "` is not whole"⟩
  else if 0 ≤ number.numerator ∧ number.numerator < 2 ^ 64 then .ok number.numerator.toNat
  else .error ⟨"number `" ++ String.ofList number.display ++
    "` does not fit unsigned 64-bit storage"⟩

/-- Sign and radix digits of a whole number. -/
def integerToStrRadix (radix : Nat) : Except ExactNumberError (Bool × List Char) :=
  if !number.isWhole then .error ⟨"radix formatting requires a whole exact Number"⟩
  else .ok (number.isNegative, numeral radix number.numerator.natAbs)

end ExactNumber

/-- Options of the text builtin. -/
structure NumberTextFormat where
  radix : Nat := 10
  minWidth : Nat := 0
  signedWidth : Option Nat := none
  groupSize : Option Nat := none
  hasPrefix : Bool := false
  deriving DecidableEq

def maxNumberTextDigits : Nat := 4096

/-- The base prefix of a radix. -/
def basePrefix (radix : Nat) : Option (List Char) :=
  match radix with
  | 2 => some ['0', 'b']
  | 8 => some ['0', 'o']
  | 16 => some ['0', 'x']
  | _ => none

/-- Checks the options and returns the prefix to print. -/
def checkTextFormat (format : NumberTextFormat) : Except ExactNumberError (List Char) := do
  reject (¬ (2 ≤ format.radix ∧ format.radix ≤ 36))
    ⟨"Number/to_text radix must be between 2 and 36"⟩
  reject (maxNumberTextDigits < format.minWidth)
    ⟨"Number/to_text min_width must not exceed " ++ toString maxNumberTextDigits⟩
  forSome format.groupSize fun size =>
    reject (size = 0 ∨ maxNumberTextDigits < size)
      ⟨"Number/to_text group_size must be between 1 and " ++ toString maxNumberTextDigits⟩
  forSome format.signedWidth fun width =>
    reject (¬ (1 ≤ width ∧ width ≤ 63)) ⟨"Number/to_text signed_width must be between 1 and 63"⟩
  if format.hasPrefix then
    okOr (basePrefix format.radix) ⟨"Number/to_text prefix is supported only for radix 2, 8, or 16"⟩
  else .ok []

/-- Whether some option asks for integer formatting. -/
def NumberTextFormat.isInteger (format : NumberTextFormat) : Bool :=
  format.radix ≠ 10 || format.minWidth ≠ 0 || format.signedWidth.isSome ||
    format.groupSize.isSome || format.hasPrefix

/-- Reads a bit pattern of the given width as a signed number. -/
def signedInteger (value : ExactNumber) (width : Nat) : Except ExactNumberError ExactNumber := do
  reject (value.isNegative = true)
    ⟨"Number/to_text signed_width requires a non-negative bit pattern"⟩
  let raw ← value.toU64Exact
  let modulus := 2 ^ width
  reject (modulus ≤ raw)
    ⟨"Number/to_text value " ++ String.ofList value.display ++ " does not fit signed_width " ++
      toString width⟩
  if raw.testBit (width - 1) then
    let signed : Int := raw - modulus
    reject (¬ (-2 ^ 63 ≤ signed ∧ signed < 2 ^ 63)) ⟨"Number/to_text signed conversion overflowed"⟩
    pure (ExactNumber.ofInt signed)
  else pure value

/-- Failures of the text builtin: a reported error, or an index below zero. -/
inductive NumberTextFailure where
  | rejected (fault : ExactNumberError)
  | underflow
  deriving DecidableEq

/-- Whether a separator stands before the digit at an index; the subtraction fails below
zero. -/
def startsGroup (groupSize firstGroup index : Nat) : Option Bool :=
  if index = 0 then some false
  else if index = firstGroup then some true
  else if index < firstGroup then none
  else some ((index - firstGroup) % groupSize = 0)

/-- One round of the grouping loop. -/
def pushDigit (groupSize firstGroup : Nat) (output : List Char) (item : Char × Nat) :
    Option (List Char) :=
  let (digit, index) := item
  (startsGroup groupSize firstGroup index).map fun separated =>
    output ++ if separated then [' ', digit] else [digit]

/-- Separates right-aligned groups by spaces. -/
def groupDigits (groupSize : Nat) (digits : List Char) : Option (List Char) :=
  digits.zipIdx.foldlM (pushDigit groupSize (digits.length % groupSize)) []

/-- Digits with leading zeros up to the minimal width. -/
def padDigits (minWidth : Nat) (digits : List Char) : List Char :=
  List.replicate (minWidth - digits.length) '0' ++ digits

/-- The number to print, read as a signed bit pattern if a width is given. -/
def chooseInteger (value : ExactNumber) (format : NumberTextFormat) :
    Except ExactNumberError ExactNumber :=
  match format.signedWidth with
  | some width => signedInteger value width
  | none => .ok value

/-- The digits as they are printed: grouped or not. -/
def layoutDigits (format : NumberTextFormat) (digits : List Char) :
    Except NumberTextFailure (List Char) :=
  match format.groupSize with
  | some groupSize => okOr (groupDigits groupSize digits) .underflow
  | none => .ok digits

/-- Formats one exact number. -/
def formatNumberText (value : ExactNumber) (format : NumberTextFormat) :
    Except NumberTextFailure (List Char) := do
  let basePrefix ← (checkTextFormat format).mapError .rejected
  if !format.isInteger then
    value.toCanonicalText.mapError .rejected
  else
    let integer ← (chooseInteger value format).mapError .rejected
    let (negative, digits) ← (integer.integerToStrRadix format.radix).mapError .rejected
    let output ← layoutDigits format (padDigits format.minWidth digits)
    pure (signText negative ++ basePrefix ++ output)

open Lib Numeral NumberForm ExactNumber Checks List Nat Int

theorem stripFactor_spec {factor value : Nat} (factorGe : 2 ≤ factor) (valuePos : 0 < value) :
    value = factor ^ (stripFactor factor value).1 * (stripFactor factor value).2 ∧
      ¬ factor ∣ (stripFactor factor value).2 := by
  induction value using Nat.strong_induction_on with
  | _ value ih =>
    rw [stripFactor]
    split
    · rename_i divides
      have factorDvd : factor ∣ value := dvd_of_mod_eq_zero divides.2.2
      have quotientPos : 0 < value / factor :=
        div_pos (le_of_dvd valuePos factorDvd) (by omega)
      obtain ⟨split, stripped⟩ := ih _ (div_lt_self valuePos factorGe) quotientPos
      refine ⟨?_, stripped⟩
      rw [pow_succ', mul_assoc, ← split, Nat.mul_div_cancel' factorDvd]
    · rename_i notDivides
      refine ⟨by simp, ?_⟩
      intro factorDvd
      exact notDivides ⟨factorGe, valuePos, mod_eq_zero_of_dvd factorDvd⟩

/-- A denominator of a terminating decimal. -/
def Terminating (denominator : Nat) : Prop :=
  ∀ factor, factor.Prime → factor ∣ denominator → factor = 2 ∨ factor = 5

/-- The number of twos, the number of fives and the rest of a denominator. -/
structure DecimalFactors (denominator twos fives rest : Nat) : Prop where
  product : denominator = 2 ^ twos * (5 ^ fives * rest)
  noTwo : ¬ 2 ∣ rest
  noFive : ¬ 5 ∣ rest

variable {denominator twos fives rest : Nat} {number : ExactNumber}

theorem decimalFactors_stripFactor (denominatorPos : 0 < denominator) :
    DecimalFactors denominator (stripFactor 2 denominator).1
      (stripFactor 5 (stripFactor 2 denominator).2).1
      (stripFactor 5 (stripFactor 2 denominator).2).2 := by
  obtain ⟨twos, odd⟩ := stripFactor_spec (le_refl 2) denominatorPos
  have oddPos : 0 < (stripFactor 2 denominator).2 := by
    apply pos_of_ne_zero
    intro isZero
    rw [isZero] at odd
    exact odd (dvd_zero 2)
  obtain ⟨fives, rest⟩ := stripFactor_spec (by decide : 2 ≤ 5) oddPos
  refine ⟨?_, ?_, rest⟩
  · rw [← fives]
    exact twos
  · intro twoDvd
    apply odd
    rw [fives]
    exact Dvd.dvd.mul_left twoDvd _

/-- Nothing is left of a denominator exactly when its decimal expansion terminates. -/
theorem DecimalFactors.rest_eq_one_iff
    (factors : DecimalFactors denominator twos fives rest) :
    rest = 1 ↔ Terminating denominator := by
  constructor
  · rintro rfl factor prime divides
    rw [factors.product, mul_one, prime.dvd_mul] at divides
    rcases divides with inTwos | inFives
    · exact .inl ((prime_dvd_prime_iff_eq prime prime_two).mp (prime.dvd_of_dvd_pow inTwos))
    · exact .inr ((prime_dvd_prime_iff_eq prime prime_five).mp
        (prime.dvd_of_dvd_pow inFives))
  · intro terminating
    by_contra notOne
    obtain ⟨factor, prime, divides⟩ := exists_prime_and_dvd notOne
    have inDenominator : factor ∣ denominator := by
      rw [factors.product]
      exact (divides.mul_left _).mul_left _
    rcases terminating factor prime inDenominator with rfl | rfl
    · exact factors.noTwo divides
    · exact factors.noFive divides

/-- A decimal scale clears the denominator exactly from the larger of the two counts on. -/
theorem DecimalFactors.max_le_of_dvd {scale : Nat}
    (factors : DecimalFactors denominator twos fives rest) (divides : denominator ∣ 10 ^ scale) :
    max twos fives ≤ scale := by
  have ten : 10 ^ scale = 2 ^ scale * 5 ^ scale := by
    rw [← mul_pow]
    norm_num
  rw [ten] at divides
  have twosDvd : 2 ^ twos ∣ 2 ^ scale * 5 ^ scale :=
    (Dvd.intro _ factors.product.symm).trans divides
  have fivesDvd : 5 ^ fives ∣ 2 ^ scale * 5 ^ scale := by
    refine Dvd.dvd.trans ?_ divides
    rw [factors.product]
    exact (Dvd.intro _ rfl).mul_left _
  have coprime (left right : Nat) : Nat.Coprime (2 ^ left) (5 ^ right) :=
    Nat.Coprime.pow _ _ (by decide)
  have twosLe : twos ≤ scale :=
    (pow_dvd_pow_iff_le_right (by decide)).mp ((coprime twos scale).dvd_of_dvd_mul_right twosDvd)
  have fivesLe : fives ≤ scale :=
    (pow_dvd_pow_iff_le_right (by decide)).mp
      ((coprime scale fives).symm.dvd_of_dvd_mul_left fivesDvd)
  exact max_le twosLe fivesLe

theorem DecimalFactors.scaled_div (factors : DecimalFactors denominator twos fives 1)
    (magnitude : Nat) :
    ((magnitude * 2 ^ (max twos fives - twos) * 5 ^ (max twos fives - fives) : Nat) : ℚ) /
        10 ^ max twos fives = (magnitude : ℚ) / denominator := by
  have ten : (10 : ℚ) ^ max twos fives = 2 ^ max twos fives * 5 ^ max twos fives := by
    rw [← mul_pow]
    norm_num
  have twosSplit : (2 : ℚ) ^ max twos fives = 2 ^ (max twos fives - twos) * 2 ^ twos := by
    rw [← pow_add, Nat.sub_add_cancel (le_max_left _ _)]
  have fivesSplit : (5 : ℚ) ^ max twos fives = 5 ^ (max twos fives - fives) * 5 ^ fives := by
    rw [← pow_add, Nat.sub_add_cancel (le_max_right _ _)]
  rw [ten, twosSplit, fivesSplit, factors.product]
  push_cast
  field_simp

theorem digits_numeral (value : Nat) : Digits (numeral 10 value) := by
  intro character member
  exact isAsciiDigit_iff.mpr (digitValue_lt_of_mem_numeral (by decide) (by decide) member)

theorem valueOf_numeral_ten (value : Nat) : valueOf 10 (numeral 10 value) = value :=
  valueOf_numeral (by decide) (by decide) value

theorem digits_replicate_zero (count : Nat) : Digits (List.replicate count '0') := by
  intro character member
  rw [eq_of_mem_replicate member]
  decide

/-- Padding keeps digits and value and leaves at least one digit before the point. -/
theorem padToScale_spec {digits : List Char} (scale : Nat) (isDigits : Digits digits) :
    Digits (padToScale digits scale) ∧ valueOf 10 (padToScale digits scale) = valueOf 10 digits ∧
      scale < (padToScale digits scale).length := by
  unfold padToScale
  split
  · refine ⟨(digits_replicate_zero _).append isDigits, ?_, ?_⟩
    · rw [valueOf_append, valueOf_replicate_zero, zero_mul, zero_add]
    · rw [length_append, length_replicate]
      omega
  · exact ⟨isDigits, rfl, by omega⟩

/-- The text that a number is printed as, and how it was chosen. -/
structure PrintedForm (number : ExactNumber) (form : NumberForm) : Prop where
  wellFormed : form.WellFormed
  value_eq : form.value = number.toRat
  terminating : Terminating number.denominator → ∃ negative whole point,
    form = .decimal negative whole point none ∧
      ∀ scale, number.denominator ∣ 10 ^ scale → (point.getD []).length ≤ scale
  fraction : ¬ Terminating number.denominator →
    form = .fraction number.isNegative (numeral 10 number.numerator.natAbs)
      (numeral 10 number.denominator)

theorem terminating_one : Terminating 1 := by
  intro factor prime divides
  exact absurd (dvd_one.mp divides) prime.ne_one

theorem signed_natAbs_div (number : ExactNumber) :
    signed number.isNegative ((number.numerator.natAbs : ℚ) / number.denominator) =
      number.toRat := by
  rw [toRat_eq_div, signed, isNegative]
  by_cases negative : number.numerator < 0
  · have magnitude : ((number.numerator.natAbs : Int) : ℚ) = -(number.numerator : ℚ) := by
      rw [ofNat_natAbs_of_nonpos negative.le, cast_neg]
    rw [cast_natCast] at magnitude
    simp only [negative, decide_true, if_true, magnitude]
    ring
  · have magnitude : ((number.numerator.natAbs : Int) : ℚ) = (number.numerator : ℚ) := by
      rw [natAbs_of_nonneg (not_lt.mp negative)]
    rw [cast_natCast] at magnitude
    simp only [negative, decide_false, Bool.false_eq_true, if_false, magnitude]

theorem printedForm_whole (whole : number.denominator = 1) :
    PrintedForm number
      (.decimal number.isNegative (numeral 10 number.numerator.natAbs) none none) where
  wellFormed := by
    refine ⟨digits_numeral _, digits_nil, ?_, by simp⟩
    simpa using numeral_ne_nil _
  value_eq := by
    rw [← signed_natAbs_div, whole]
    simp [value, exponentValue, valueOf_numeral_ten]
  terminating _ := ⟨_, _, _, rfl, fun scale _ => zero_le scale⟩
  fraction notTerminating := by
    rw [whole] at notTerminating
    exact absurd terminating_one notTerminating

theorem printedForm_fraction (notTerminating : ¬ Terminating number.denominator) :
    PrintedForm number (.fraction number.isNegative (numeral 10 number.numerator.natAbs)
      (numeral 10 number.denominator)) where
  wellFormed := by
    refine ⟨digits_numeral _, numeral_ne_nil _, digits_numeral _, numeral_ne_nil _, ?_⟩
    rw [← valueOf_eq_zero_iff (digits_numeral _), valueOf_numeral_ten]
    exact number.denominator_pos.ne'
  value_eq := by
    rw [← signed_natAbs_div, value, valueOf_numeral_ten, valueOf_numeral_ten]
  terminating terminating := absurd terminating notTerminating
  fraction _ := rfl

theorem printedForm_decimal (factors : DecimalFactors number.denominator twos fives 1) :
    let scale := max twos fives
    let digits := padToScale (numeral 10
      (number.numerator.natAbs * 2 ^ (scale - twos) * 5 ^ (scale - fives))) scale
    PrintedForm number (.decimal number.isNegative (digits.take (digits.length - scale))
      (some (digits.drop (digits.length - scale))) none) := by
  intro scale digits
  obtain ⟨isDigits, valueEq, longer⟩ := padToScale_spec scale (digits_numeral
    (number.numerator.natAbs * 2 ^ (scale - twos) * 5 ^ (scale - fives)))
  change scale < digits.length at longer
  have fractionLength : (digits.drop (digits.length - scale)).length = scale := by
    rw [length_drop]
    omega
  refine ⟨⟨?_, ?_, ?_, by simp⟩, ?_, ?_, ?_⟩
  · exact fun character member => isDigits character (mem_of_mem_take member)
  · exact fun character member => isDigits character (mem_of_mem_drop member)
  · rw [Option.getD_some, take_append_drop]
    exact ne_nil_of_length_pos (by omega)
  · rw [← signed_natAbs_div, value, Option.getD_some, take_append_drop,
      fractionLength, valueEq, valueOf_numeral_ten, factors.scaled_div]
    simp [exponentValue]
  · intro _
    refine ⟨_, _, _, rfl, ?_⟩
    intro other divides
    rw [Option.getD_some, fractionLength]
    exact factors.max_le_of_dvd divides
  · intro notTerminating
    exact absurd (factors.rest_eq_one_iff.mp rfl) notTerminating

theorem checkFormattedDigits_eq_ok_iff {text printed : List Char}
    {profile : ExactNumberSemanticProfileV1} :
    checkFormattedDigits text profile = .ok printed ↔
      text.countP isAsciiDigit ≤ profile.maxFormattedDigits ∧ text = printed := by
  unfold checkFormattedDigits
  dsimp only
  split
  · simp only [reduceCtorEq, false_iff]
    omega
  · simp only [Except.ok.injEq]
    exact ⟨fun same => ⟨by omega, same⟩, fun given => given.2⟩

/-- Every printed text is a printed form inside the digit budget. -/
theorem exists_printedForm {text : List Char} (printed : number.toCanonicalText = .ok text) :
    ∃ form, form.spell = text ∧ PrintedForm number form ∧
      form.digitCount ≤ ExactNumberSemanticProfileV1.default.maxFormattedDigits := by
  -- the digit budget of a text is the digit count of its form
  suffices found : ∃ form, PrintedForm number form ∧
      checkFormattedDigits form.spell .default = .ok text by
    obtain ⟨form, isPrinted, checked⟩ := found
    obtain ⟨budget, spelled⟩ := checkFormattedDigits_eq_ok_iff.mp checked
    rw [countP_spell isPrinted.wellFormed] at budget
    exact ⟨form, spelled, isPrinted, budget⟩
  unfold toCanonicalText toCanonicalTextWithProfile at printed
  split at printed
  · rename_i whole
    refine ⟨_, printedForm_whole (of_decide_eq_true whole), ?_⟩
    rw [spell]
    simpa [pointText, exponentText, integerText, isNegative] using printed
  · have factors := decimalFactors_stripFactor number.denominator_pos
    dsimp only at printed
    split at printed
    · rename_i notOne
      refine ⟨_, printedForm_fraction fun terminating =>
        notOne (factors.rest_eq_one_iff.mpr terminating), ?_⟩
      rw [spell]
      simpa [integerText, isNegative] using printed
    · rename_i one
      rw [not_not.mp one] at factors
      obtain ⟨_, _, printed⟩ := bind_eq_ok_iff.mp printed
      obtain ⟨_, _, printed⟩ := bind_eq_ok_iff.mp printed
      refine ⟨_, printedForm_decimal factors, ?_⟩
      rw [spell]
      simpa [pointText, exponentText, insertPoint] using printed

/-- A form that spells a decimal without an exponent. -/
def IsDecimalText (text : List Char) : Prop :=
  ∃ negative whole point, (decimal negative whole point none).WellFormed ∧
    (decimal negative whole point none).spell = text

theorem denominator_dvd_of_decimal {negative : Bool} {whole : List Char}
    {point : Option (List Char)}
    (denotes : (decimal negative whole point none).value = number.toRat) :
    number.denominator ∣ 10 ^ (point.getD []).length := by
  generalize lengthEq : (point.getD []).length = length at *
  have ratio : number.toRat =
      ((if negative then -(valueOf 10 (whole ++ point.getD []) : Int)
        else valueOf 10 (whole ++ point.getD []) : Int) : ℚ) / ((10 ^ length : Nat) : Int) := by
    rw [← denotes, value, lengthEq]
    cases negative <;> simp [signed, exponentValue, neg_div]
  have divides := Rat.den_dvd (if negative then -(valueOf 10 (whole ++ point.getD []) : Int)
    else valueOf 10 (whole ++ point.getD [])) ((10 ^ length : Nat) : Int)
  rw [Rat.divInt_eq_div, ← ratio] at divides
  exact natCast_dvd_natCast.mp divides

theorem PrintedForm.parseStrict {form : NumberForm} (isPrinted : PrintedForm number form)
    (within : number.WithinProfile .default)
    (budget : form.digitCount ≤ ExactNumberSemanticProfileV1.default.maxFormattedDigits) :
    ExactNumber.parseStrict form.spell none = .ok number := by
  rw [parseStrict_none_eq_ok_iff]
  refine ⟨form, rfl, isPrinted.wellFormed, ⟨budget, ?_, ?_⟩, isPrinted.value_eq.symm⟩
  · by_cases terminating : Terminating number.denominator
    · obtain ⟨_, whole, point, rfl, _⟩ := isPrinted.terminating terminating
      refine ⟨by decide, ?_⟩
      change whole.length + (point.getD []).length + 0 ≤ 4096 at budget
      change (((point.getD []).length : Int) - 0).natAbs ≤ 4096
      omega
    · rw [isPrinted.fraction terminating]
      trivial
  · rw [isPrinted.value_eq]
    exact within

namespace ExactNumber

/-- Printing and parsing: the text is read back as the number, it is a decimal exactly for
terminating denominators, then with the fewest digits behind the point, and otherwise it is
the reduced fraction. -/
theorem toCanonicalText_roundTrip {number : ExactNumber} {text : List Char}
    (within : number.WithinProfile .default) (printed : number.toCanonicalText = .ok text) :
    parseStrict text none = .ok number ∧
    (IsDecimalText text ↔ Terminating number.denominator) ∧
    (Terminating number.denominator → ∃ negative whole point,
      (decimal negative whole point none).WellFormed ∧
      (decimal negative whole point none).spell = text ∧
      ∀ negative' whole' point', (decimal negative' whole' point' none).WellFormed →
        (decimal negative' whole' point' none).value = number.toRat →
        (point.getD []).length ≤ (point'.getD []).length) ∧
    (¬ Terminating number.denominator →
      text = (fraction number.isNegative (numeral 10 number.numerator.natAbs)
        (numeral 10 number.denominator)).spell) ∧
    ∀ other : ExactNumber, other.WithinProfile .default →
      other.toCanonicalText = .ok text → other = number := by
  have readBack {other : ExactNumber}
      (otherWithin : other.WithinProfile .default)
      (otherPrinted : other.toCanonicalText = .ok text) :
      parseStrict text none = .ok other := by
    obtain ⟨form, rfl, isPrinted, budget⟩ := exists_printedForm otherPrinted
    exact isPrinted.parseStrict otherWithin budget
  obtain ⟨form, spelled, isPrinted, _⟩ := exists_printedForm printed
  refine ⟨readBack within printed, ⟨?_, ?_⟩, ?_, ?_, ?_⟩
  · rintro ⟨negative, whole, point, wellFormed, sameText⟩
    by_contra notTerminating
    apply slash_not_mem_decimal wellFormed
    rw [sameText, ← spelled, isPrinted.fraction notTerminating]
    simp [spell]
  · intro terminating
    obtain ⟨negative, whole, point, rfl, _⟩ := isPrinted.terminating terminating
    exact ⟨negative, whole, point, isPrinted.wellFormed, spelled⟩
  · intro terminating
    obtain ⟨negative, whole, point, rfl, minimal⟩ := isPrinted.terminating terminating
    refine ⟨negative, whole, point, isPrinted.wellFormed, spelled, ?_⟩
    intro negative' whole' point' _ denotes
    exact minimal _ (denominator_dvd_of_decimal denotes)
  · intro notTerminating
    rw [← isPrinted.fraction notTerminating, spelled]
  · intro other otherWithin otherPrinted
    have same := (readBack otherWithin otherPrinted).symm.trans (readBack within printed)
    exact Except.ok.inj same

private def threeQuarters : ExactNumber :=
  ⟨3, 4, by decide, by decide⟩

private theorem toCanonicalText_threeQuarters :
    threeQuarters.toCanonicalText = .ok ['0', '.', '7', '5'] := by
  have twos : stripFactor 2 4 = (2, 1) := by
    rw [stripFactor, dif_pos (by decide), stripFactor, dif_pos (by decide), stripFactor,
      dif_neg (by decide)]
  have fives : stripFactor 5 1 = (0, 1) := by
    rw [stripFactor, dif_neg (by decide)]
  have notWhole : threeQuarters.isWhole = false := rfl
  have denominator : threeQuarters.denominator = 4 := rfl
  simp only [toCanonicalText, toCanonicalTextWithProfile, notWhole, denominator, twos, fives,
    Bool.false_eq_true, if_false, ne_eq, not_true_eq_false, check_bind_eq_ok_iff,
    checkFormattedDigits_eq_ok_iff]
  exact ⟨by decide, by decide, by decide, by decide⟩

/-- Three quarters are printed and read back as `0.75`. -/
theorem toCanonicalText_roundTrip_threeQuarters :
    threeQuarters.WithinProfile .default ∧
      threeQuarters.toCanonicalText = .ok ['0', '.', '7', '5'] ∧
      parseStrict ['0', '.', '7', '5'] none = .ok threeQuarters := by
  have within : threeQuarters.WithinProfile .default := by decide
  exact ⟨within, toCanonicalText_threeQuarters,
    (toCanonicalText_roundTrip within toCanonicalText_threeQuarters).1⟩

end ExactNumber

end BoonCircuit.Data
