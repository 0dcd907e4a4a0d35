import BoonCircuit.Data.NumberParsing
import Mathlib.Tactic.FinCases

/-!
# The grammar of number texts

A number text is a signed fraction of two digit strings, or a signed decimal with an
optional point and an optional exponent.  `NumberForm` is such a text taken apart;
`spell` puts it together and `value` is the rational it denotes.  Both passes of
strict parsing are compared with this grammar: validation accepts exactly the spelled
forms inside the digit budget, and on such texts conversion can only fail because a
budget is exceeded.
-/

namespace BoonCircuit.Data

open Option hiding all_eq_true
open Lib Numeral Checks List

/-- All characters are decimal digits. -/
def Digits (text : List Char) : Prop :=
  ∀ character ∈ text, isAsciiDigit character

/-- An exponent marker, an optional sign and digits. -/
structure ExponentForm where
  marker : Char
  sign : Option Char
  digits : List Char

namespace ExponentForm

def spell (form : ExponentForm) : List Char :=
  form.marker :: (form.sign.toList ++ form.digits)

structure WellFormed (form : ExponentForm) : Prop where
  marker : form.marker = 'e' ∨ form.marker = 'E'
  sign : form.sign = none ∨ form.sign = some '+' ∨ form.sign = some '-'
  digits : Digits form.digits
  nonempty : form.digits ≠ []

def value (form : ExponentForm) : Int :=
  if form.sign = some '-' then -valueOf 10 form.digits else valueOf 10 form.digits

end ExponentForm

/-- A number text taken apart. -/
inductive NumberForm where
  | fraction (negative : Bool) (numerator denominator : List Char)
  | decimal (negative : Bool) (whole : List Char) (point : Option (List Char))
      (exponent : Option ExponentForm)

/-- The characters of an optional sign. -/
def signText (negative : Bool) : List Char :=
  if negative then ['-'] else []

/-- The characters of an optional decimal point and the digits behind it. -/
def pointText (point : Option (List Char)) : List Char :=
  point.elim [] ('.' :: ·)

/-- The characters of an optional exponent. -/
def exponentText (exponent : Option ExponentForm) : List Char :=
  exponent.elim [] ExponentForm.spell

/-- A magnitude with its sign. -/
def signed (negative : Bool) (magnitude : ℚ) : ℚ :=
  if negative then -magnitude else magnitude

namespace NumberForm

/-- The text of a form. -/
def spell : NumberForm → List Char
  | .fraction negative numerator denominator =>
    signText negative ++ (numerator ++ '/' :: denominator)
  | .decimal negative whole point exponent =>
    signText negative ++ (whole ++ (pointText point ++ exponentText exponent))

/-- The grammar: digit strings where digits are expected, a nonzero denominator, at
least one digit in the mantissa. -/
def WellFormed : NumberForm → Prop
  | .fraction _ numerator denominator =>
    Digits numerator ∧ numerator ≠ [] ∧ Digits denominator ∧ denominator ≠ [] ∧
      ¬ ∀ character ∈ denominator, character = '0'
  | .decimal _ whole point exponent =>
    Digits whole ∧ Digits (point.getD []) ∧ whole ++ point.getD [] ≠ [] ∧
      ∀ form ∈ exponent, form.WellFormed

/-- The number of digits of the text. -/
def digitCount : NumberForm → Nat
  | .fraction _ numerator denominator => numerator.length + denominator.length
  | .decimal _ whole point exponent =>
    whole.length + (point.getD []).length + (exponent.elim 0 (·.digits.length))

/-- The power of ten written behind the marker. -/
def exponentValue (exponent : Option ExponentForm) : Int :=
  exponent.elim 0 ExponentForm.value

/-- The rational denoted by a form. -/
def value : NumberForm → ℚ
  | .fraction negative numerator denominator =>
    signed negative ((valueOf 10 numerator : ℚ) / valueOf 10 denominator)
  | .decimal negative whole point exponent =>
    signed negative ((valueOf 10 (whole ++ point.getD []) : ℚ) / 10 ^ (point.getD []).length *
      10 ^ exponentValue exponent)

/-- The exponent is a 32-bit integer and the decimal scale is inside the digit budget. -/
def ScaleWithin (profile : ExactNumberSemanticProfileV1) : NumberForm → Prop
  | .fraction _ _ _ => True
  | .decimal _ _ point exponent =>
    FitsI32 (exponentValue exponent) ∧
      (((point.getD []).length : Int) - exponentValue exponent).natAbs ≤ profile.maxParsedDigits

/-- The digit, exponent, scale and component budgets of the default profile. -/
structure WithinBudgets (form : NumberForm) : Prop where
  digits : form.digitCount ≤ ExactNumberSemanticProfileV1.default.maxParsedDigits
  scale : form.ScaleWithin .default
  components : (ExactNumber.ofRat form.value).WithinProfile .default

end NumberForm

variable {character other : Char} {left right text rest whole numerator denominator : List Char}
  {start count position : Nat} {profile : ExactNumberSemanticProfileV1} {scan final : DecimalScan}
  {form : ExponentForm} {point : Option (List Char)} {exponent : Option ExponentForm}
  {negative : Bool}

theorem isAsciiDigit_toNat (digit : isAsciiDigit character) :
    48 ≤ character.toNat ∧ character.toNat ≤ 57 := by
  unfold isAsciiDigit at digit
  rw [decide_eq_true_iff] at digit
  exact ⟨UInt32.le_iff_toNat_le.mp digit.1, UInt32.le_iff_toNat_le.mp digit.2⟩

theorem ne_of_isAsciiDigit (digit : isAsciiDigit character)
    (outside : other.toNat < 48 ∨ 57 < other.toNat) : character ≠ other := by
  rintro rfl
  have range := isAsciiDigit_toNat digit
  omega

theorem not_isWhitespace_of_isAsciiDigit (digit : isAsciiDigit character) :
    isWhitespace character = false := by
  have range := isAsciiDigit_toNat digit
  simp only [isWhitespace, Bool.or_eq_false_iff, Bool.and_eq_false_imp, decide_eq_true_eq,
    decide_eq_false_iff_not, beq_eq_false_iff_ne]
  omega

theorem Digits.append (leftDigits : Digits left)
    (rightDigits : Digits right) : Digits (left ++ right) := by
  intro character member
  rcases mem_append.mp member with inLeft | inRight
  · exact leftDigits character inLeft
  · exact rightDigits character inRight

theorem Digits.not_mem (digits : Digits text)
    (outside : other.toNat < 48 ∨ 57 < other.toNat) : other ∉ text :=
  fun member => ne_of_isAsciiDigit (digits other member) outside rfl

theorem digits_cons : Digits (character :: text) ↔ isAsciiDigit character ∧ Digits text :=
  forall_mem_cons

theorem digits_nil : Digits [] :=
  fun _ member => absurd member not_mem_nil

theorem signText_append_stripMinus (text : List Char) :
    signText (text.head? = some '-') ++ stripMinus text = text := by
  unfold signText stripMinus
  cases text with
  | nil => rfl
  | cons character => by_cases minus : character = '-' <;> simp [minus]

theorem stripMinus_signText (noMinus : text.head? ≠ some '-')
    (negative : Bool) : stripMinus (signText negative ++ text) = text := by
  unfold signText stripMinus
  cases negative <;> simp [noMinus]

theorem head?_signText (noMinus : text.head? ≠ some '-') (negative : Bool) :
    (signText negative ++ text).head? = some '-' ↔ negative = true := by
  unfold signText
  cases negative <;> simp [noMinus]

private theorem slashes_of_not_mem (absent : '/' ∉ text) (start : Nat) :
    (text.zipIdx start).filterMap
      (fun (character, index) => if character = '/' then some index else none) = [] := by
  rw [filterMap_eq_nil_iff]
  rintro ⟨character, index⟩ member
  have present : character ∈ text := fst_mem_of_mem_zipIdx member
  simp only [ite_eq_right_iff, reduceCtorEq]
  rintro rfl
  exact absent present

theorem slashPositions_append (first : '/' ∉ left) :
    slashPositions (left ++ '/' :: right) =
      left.length :: (right.zipIdx (left.length + 1)).filterMap
        (fun (character, index) => if character = '/' then some index else none) := by
  unfold slashPositions
  rw [zipIdx_append, filterMap_append, slashes_of_not_mem first]
  simp [zipIdx_cons]

theorem slashPositions_eq_nil_iff : slashPositions text = [] ↔ '/' ∉ text := by
  constructor
  · intro none present
    obtain ⟨_, _, rfl, first⟩ := eq_append_cons_of_mem present
    rw [slashPositions_append first] at none
    cases none
  · exact fun absent => slashes_of_not_mem absent 0

theorem slashPositions_eq_singleton_iff {slash : Nat} :
    slashPositions text = [slash] ↔
      ∃ left right, text = left ++ '/' :: right ∧ '/' ∉ left ∧ '/' ∉ right ∧
        slash = left.length := by
  constructor
  · intro single
    have present : '/' ∈ text := by
      by_contra absent
      rw [slashPositions_eq_nil_iff.mpr absent] at single
      cases single
    obtain ⟨left, right, rfl, first⟩ := eq_append_cons_of_mem present
    rw [slashPositions_append first, List.cons.injEq] at single
    refine ⟨left, right, rfl, first, ?_, single.1.symm⟩
    intro again
    obtain ⟨_, _, rfl, _⟩ := eq_append_cons_of_mem again
    have positions := single.2
    rw [zipIdx_append] at positions
    simp at positions
  · rintro ⟨left, right, rfl, first, last, rfl⟩
    rw [slashPositions_append first, slashes_of_not_mem last]

private theorem foldlM_countDecimalDigit {index initial : Nat} :
    (text.zipIdx index).foldlM (countDecimalDigit start) initial = .ok count ↔
      Digits text ∧ count = initial + text.length := by
  induction text generalizing index initial with
  | nil => simp [digits_nil, pure, Except.pure, eq_comm]
  | cons character text ih =>
    rw [zipIdx_cons, foldlM_cons, bind_eq_ok_iff, digits_cons]
    cases digit : isAsciiDigit character with
    | false => simp [countDecimalDigit, digit]
    | true =>
      simp only [countDecimalDigit, digit, Bool.not_true, Bool.false_eq_true, if_false,
        Except.ok.injEq, exists_eq_left', ih, length_cons, true_and]
      constructor <;> rintro ⟨digits, rfl⟩ <;> exact ⟨digits, by omega⟩

theorem validateDecimalDigits_eq_ok_iff :
    validateDecimalDigits text start = .ok count ↔ Digits text ∧ count = text.length := by
  unfold validateDecimalDigits
  rw [foldlM_countDecimalDigit, Nat.zero_add]

theorem validateDigitBudget_eq_ok_iff {done : Unit} :
    validateDigitBudget count position profile = .ok done ↔
      count ≠ 0 ∧ count ≤ profile.maxParsedDigits := by
  unfold validateDigitBudget
  split
  · simp_all
  · split <;> simp_all

/-- The fraction validator accepts a signed digit string, a slash and a nonzero digit
string. -/
theorem validateFraction_eq_ok_iff :
    validateFraction (left ++ '/' :: right) left.length profile = .ok () ↔
      (NumberForm.fraction (left.head? = some '-') (stripMinus left) right).WellFormed ∧
        (stripMinus left).length + right.length ≤ profile.maxParsedDigits := by
  have taken : (left ++ '/' :: right).take left.length = left := take_left
  have dropped : (left ++ '/' :: right).drop (left.length + 1) = right := by
    rw [← drop_drop, drop_left]
    rfl
  unfold validateFraction
  simp only [taken, dropped, bind_eq_ok_iff, reject_eq_ok_iff, validateDecimalDigits_eq_ok_iff,
    validateDigitBudget_eq_ok_iff, all_eq_true, decide_eq_true_eq]
  constructor
  · rintro ⟨_, nonempty, _, ⟨digits, rfl⟩, _, rightNonempty, _, ⟨rightDigits, rfl⟩, _,
      ⟨_, budget⟩, positive⟩
    exact ⟨⟨digits, nonempty, rightDigits, rightNonempty, positive⟩, budget⟩
  · rintro ⟨⟨digits, nonempty, rightDigits, rightNonempty, positive⟩, budget⟩
    have counted := length_pos_of_ne_nil nonempty
    exact ⟨(), nonempty, _, ⟨digits, rfl⟩, (), rightNonempty, _, ⟨rightDigits, rfl⟩, (),
      ⟨by omega, budget⟩, positive⟩

theorem step_cases {next : DecimalScan} (accepted : scan.step position character = .ok next) :
    (isAsciiDigit character ∧ next =
        if scan.seenExponent then
          { scan with exponentDigits := scan.exponentDigits + 1, exponentSignAllowed := false }
        else
          { scan with mantissaDigits := scan.mantissaDigits + 1, exponentSignAllowed := false }) ∨
      (character = '.' ∧ scan.seenDecimal = false ∧ scan.seenExponent = false ∧
        next = { scan with seenDecimal := true }) ∨
      ((character = 'e' ∨ character = 'E') ∧ scan.seenExponent = false ∧ 0 < scan.mantissaDigits ∧
        next = { scan with seenExponent := true, exponentSignAllowed := true }) ∨
      ((character = '+' ∨ character = '-') ∧ scan.exponentSignAllowed = true ∧
        next = { scan with exponentSignAllowed := false }) := by
  unfold DecimalScan.step at accepted
  split at accepted
  · rename_i digit
    exact .inl ⟨digit, (Except.ok.inj accepted).symm⟩
  split at accepted
  · rename_i point
    split at accepted
    · rename_i expected
      simp only [Bool.and_eq_true, Bool.not_eq_true'] at expected
      exact .inr (.inl ⟨point, expected.1, expected.2, (Except.ok.inj accepted).symm⟩)
    · cases accepted
  split at accepted
  · rename_i marker
    split at accepted
    · rename_i expected
      simp only [Bool.and_eq_true, Bool.not_eq_true', decide_eq_true_eq] at expected
      exact .inr (.inr (.inl ⟨marker, expected.1, expected.2, (Except.ok.inj accepted).symm⟩))
    · cases accepted
  split at accepted
  · rename_i sign
    split at accepted
    · rename_i allowed
      exact .inr (.inr (.inr ⟨sign, allowed, (Except.ok.inj accepted).symm⟩))
    · cases accepted
  · cases accepted

/-- Behind the marker the scanner accepts an optional sign and digits. -/
theorem scanDecimal_exponent (accepted : scanDecimal scan position text = .ok final)
    (inExponent : scan.seenExponent = true) :
    ∃ sign digits, text = sign.toList ++ digits ∧ Digits digits ∧
      (sign = none ∨ scan.exponentSignAllowed = true ∧ (sign = some '+' ∨ sign = some '-')) ∧
      final.seenExponent = true ∧ final.mantissaDigits = scan.mantissaDigits ∧
      final.exponentDigits = scan.exponentDigits + digits.length := by
  induction text generalizing scan position with
  | nil =>
    cases accepted
    exact ⟨none, [], rfl, digits_nil, .inl rfl, inExponent, rfl, rfl⟩
  | cons character rest ih =>
    obtain ⟨_, stepped, accepted⟩ := bind_eq_ok_iff.mp accepted
    rcases step_cases stepped with ⟨digit, rfl⟩ | ⟨_, _, outside, _⟩ | ⟨_, outside, _⟩ |
      ⟨signCharacter, allowed, rfl⟩
    · rw [if_pos inExponent] at accepted
      obtain ⟨sign, digits, rfl, restDigits, signs, exponent, mantissa, count⟩ :=
        ih accepted inExponent
      have unsigned : sign = none := by simpa using signs
      subst unsigned
      refine ⟨none, character :: digits, rfl, digits_cons.mpr ⟨digit, restDigits⟩, .inl rfl,
        exponent, mantissa, ?_⟩
      simp only [count, length_cons]
      omega
    · rw [inExponent] at outside
      cases outside
    · rw [inExponent] at outside
      cases outside
    · obtain ⟨sign, digits, rfl, restDigits, signs, exponent, mantissa, count⟩ :=
        ih accepted inExponent
      have unsigned : sign = none := by simpa using signs
      subst unsigned
      refine ⟨some character, digits, rfl, restDigits, .inr ⟨allowed, ?_⟩, exponent, mantissa,
        count⟩
      simpa using signCharacter

/-- In the mantissa the scanner accepts digits, at most one point, and an exponent behind
at least one digit. -/
theorem scanDecimal_mantissa (accepted : scanDecimal scan position text = .ok final)
    (inMantissa : scan.seenExponent = false) (noSign : scan.exponentSignAllowed = false) :
    ∃ whole point exponent,
      text = whole ++ (pointText point ++ exponentText exponent) ∧
      Digits whole ∧ Digits (point.getD []) ∧ (scan.seenDecimal = true → point = none) ∧
      final.mantissaDigits = scan.mantissaDigits + whole.length + (point.getD []).length ∧
      (exponent = none ∧ final.seenExponent = false ∧ final.exponentDigits = scan.exponentDigits ∨
        ∃ form, exponent = some form ∧ (form.marker = 'e' ∨ form.marker = 'E') ∧
          (form.sign = none ∨ form.sign = some '+' ∨ form.sign = some '-') ∧
          Digits form.digits ∧ final.seenExponent = true ∧
          final.exponentDigits = scan.exponentDigits + form.digits.length) := by
  induction text generalizing scan position with
  | nil =>
    cases accepted
    exact ⟨[], none, none, rfl, digits_nil, digits_nil, fun _ => rfl, rfl,
      .inl ⟨rfl, inMantissa, rfl⟩⟩
  | cons character rest ih =>
    obtain ⟨_, stepped, accepted⟩ := bind_eq_ok_iff.mp accepted
    rcases step_cases stepped with ⟨digit, rfl⟩ | ⟨rfl, noPoint, _, rfl⟩ |
      ⟨marker, _, _, rfl⟩ | ⟨_, allowed, _⟩
    · rw [if_neg (by simp [inMantissa])] at accepted
      obtain ⟨whole, point, exponent, rfl, wholeDigits, pointDigits, once, count, tail⟩ :=
        ih accepted inMantissa rfl
      refine ⟨character :: whole, point, exponent, rfl, digits_cons.mpr ⟨digit, wholeDigits⟩,
        pointDigits, once, ?_, tail⟩
      simp only [count, length_cons]
      omega
    · obtain ⟨whole, point, exponent, rfl, wholeDigits, _, once, count, tail⟩ :=
        ih accepted inMantissa noSign
      have noSecond : point = none := once rfl
      subst noSecond
      refine ⟨[], some whole, exponent, rfl, digits_nil, wholeDigits, ?_, ?_, tail⟩
      · simp [noPoint]
      · simpa using count
    · obtain ⟨sign, digits, rfl, restDigits, signs, seen, mantissa, count⟩ :=
        scanDecimal_exponent accepted rfl
      refine ⟨[], none, some ⟨character, sign, digits⟩, rfl, digits_nil, digits_nil,
        fun _ => rfl, mantissa, .inr ⟨_, rfl, marker, ?_, restDigits, seen, count⟩⟩
      simpa using signs
    · rw [noSign] at allowed
      cases allowed

theorem step_digit (digit : isAsciiDigit character) :
    scan.step position character = .ok (if scan.seenExponent then
        { scan with exponentDigits := scan.exponentDigits + 1, exponentSignAllowed := false }
      else
        { scan with mantissaDigits := scan.mantissaDigits + 1, exponentSignAllowed := false }) := by
  rw [DecimalScan.step, if_pos digit]

theorem scanDecimal_mantissa_digits (digits : Digits text) (inMantissa : scan.seenExponent = false)
    (noSign : scan.exponentSignAllowed = false) :
    scanDecimal scan position (text ++ rest) =
      scanDecimal { scan with mantissaDigits := scan.mantissaDigits + text.length }
        (position + text.length) rest := by
  induction text generalizing scan position with
  | nil => rfl
  | cons character text ih =>
    obtain ⟨digit, digits⟩ := digits_cons.mp digits
    have next : scan.step position character =
        .ok { scan with mantissaDigits := scan.mantissaDigits + 1 } := by
      rw [step_digit digit, if_neg (by simp [inMantissa]), ← noSign]
    rw [cons_append, scanDecimal, next]
    change scanDecimal _ _ _ = _
    rw [ih digits (by exact inMantissa) (by exact noSign), length_cons]
    simp only [Nat.add_assoc, Nat.add_comm 1]

theorem scanDecimal_exponent_digits (digits : Digits text) (inExponent : scan.seenExponent = true) :
    ∃ final, scanDecimal scan position text = .ok final ∧ final.seenExponent = true ∧
      final.mantissaDigits = scan.mantissaDigits ∧
      final.exponentDigits = scan.exponentDigits + text.length := by
  induction text generalizing scan position with
  | nil => exact ⟨scan, rfl, inExponent, rfl, rfl⟩
  | cons character text ih =>
    obtain ⟨digit, digits⟩ := digits_cons.mp digits
    rw [scanDecimal, step_digit digit, if_pos inExponent]
    obtain ⟨final, accepted, seen, mantissa, count⟩ :=
      @ih (position + 1) { scan with
        exponentDigits := scan.exponentDigits + 1, exponentSignAllowed := false } digits inExponent
    refine ⟨final, accepted, seen, mantissa, ?_⟩
    simp only [count, length_cons]
    omega

theorem scanDecimal_exponentForm (wellFormed : form.WellFormed)
    (inMantissa : scan.seenExponent = false) (nonempty : 0 < scan.mantissaDigits) :
    ∃ final, scanDecimal scan position form.spell = .ok final ∧ final.seenExponent = true ∧
      final.mantissaDigits = scan.mantissaDigits ∧
      final.exponentDigits = scan.exponentDigits + form.digits.length := by
  have marked : scan.step position form.marker =
      .ok { scan with seenExponent := true, exponentSignAllowed := true } := by
    have marker := wellFormed.marker
    have notDigit : isAsciiDigit form.marker = false := by
      rcases marker with marker | marker <;> rw [marker] <;> decide
    have notPoint : form.marker ≠ '.' := by
      rcases marker with marker | marker <;> rw [marker] <;> decide
    simp [DecimalScan.step, notDigit, notPoint, marker, inMantissa, nonempty]
  rw [ExponentForm.spell, scanDecimal, marked]
  rcases wellFormed.sign with unsigned | signed | signed
  · rw [unsigned]
    exact scanDecimal_exponent_digits wellFormed.digits rfl
  all_goals
    rw [signed]
    exact scanDecimal_exponent_digits wellFormed.digits rfl

theorem scanDecimal_form (wholeDigits : Digits whole)
    (pointDigits : Digits (point.getD [])) (nonempty : whole ++ point.getD [] ≠ [])
    (exponentForm : ∀ form ∈ exponent, form.WellFormed) (position : Nat) :
    ∃ final, scanDecimal {} position
        (whole ++ (pointText point ++ exponentText exponent)) = .ok final ∧
      final.mantissaDigits = whole.length + (point.getD []).length ∧
      final.seenExponent = exponent.isSome ∧
      final.exponentDigits = exponent.elim 0 (·.digits.length) := by
  have counted : 0 < whole.length + (point.getD []).length := by
    rw [← length_append]
    exact length_pos_of_ne_nil nonempty
  -- both kinds of mantissa leave the same counters behind
  obtain ⟨seenDecimal, position, scanned⟩ : ∃ seenDecimal position',
      scanDecimal {} position (whole ++ (pointText point ++ exponentText exponent)) =
        scanDecimal { seenDecimal, mantissaDigits := whole.length + (point.getD []).length }
          position' (exponentText exponent) := by
    rw [scanDecimal_mantissa_digits wholeDigits rfl rfl]
    cases point with
    | none => exact ⟨false, position + whole.length, by simp [pointText]⟩
    | some digits =>
      refine ⟨true, position + whole.length + 1 + digits.length, ?_⟩
      change scanDecimal { seenDecimal := true, mantissaDigits := 0 + whole.length }
        (position + whole.length + 1) (digits ++ exponentText exponent) = _
      have fractionDigits : Digits digits := pointDigits
      rw [scanDecimal_mantissa_digits fractionDigits rfl rfl]
      simp
  rw [scanned]
  cases exponent with
  | none => exact ⟨_, rfl, rfl, rfl, rfl⟩
  | some form =>
    obtain ⟨final, accepted, seen, mantissa, count⟩ :=
      @scanDecimal_exponentForm position
        { seenDecimal, mantissaDigits := whole.length + (point.getD []).length } form
        (exponentForm form rfl) rfl counted
    exact ⟨final, accepted, mantissa, seen, by simpa using count⟩

theorem head?_mantissa (wholeDigits : Digits whole) (nonempty : whole ++ point.getD [] ≠ [])
    (outside : other.toNat < 46 ∨ 57 < other.toNat) :
    (whole ++ (pointText point ++ rest)).head? ≠ some other := by
  cases whole with
  | nil =>
    cases point with
    | none => exact absurd rfl nonempty
    | some =>
      simp only [pointText, elim_some, nil_append, cons_append, head?_cons, ne_eq, some.injEq]
      rintro rfl
      revert outside
      decide
  | cons =>
    simp only [cons_append, head?_cons, ne_eq, some.injEq]
    exact ne_of_isAsciiDigit (digits_cons.mp wholeDigits).1 (by omega)

/-- The decimal validator accepts the well-formed decimals inside the digit budget. -/
theorem validateDecimal_eq_ok_iff :
    validateDecimal text profile = .ok () ↔
      ∃ negative whole point exponent,
        (NumberForm.decimal negative whole point exponent).spell = text ∧
        (NumberForm.decimal negative whole point exponent).WellFormed ∧
        (NumberForm.decimal negative whole point exponent).digitCount ≤
          profile.maxParsedDigits := by
  unfold validateDecimal
  simp only [bind_eq_ok_iff, reject_eq_ok_iff, validateDigitBudget_eq_ok_iff]
  constructor
  · rintro ⟨_, _, _, scanned, _, _, _, exponentNonempty, _, budget⟩
    obtain ⟨whole, point, exponent, unsigned, wholeDigits, pointDigits, _, mantissa, tail⟩ :=
      scanDecimal_mantissa scanned rfl rfl
    simp only [Nat.zero_add] at mantissa
    refine ⟨text.head? = some '-', whole, point, exponent, ?_, ⟨wholeDigits, pointDigits, ?_, ?_⟩,
      ?_⟩
    · rw [NumberForm.spell, ← unsigned, signText_append_stripMinus]
    · rw [ne_eq, ← length_eq_zero_iff, length_append]
      omega
    · rcases tail with ⟨rfl, _⟩ | ⟨form, rfl, marker, sign, digits, seen, count⟩
      · simp
      · rintro _ ⟨rfl⟩
        refine ⟨marker, sign, digits, ?_⟩
        rintro empty
        exact exponentNonempty ⟨seen, by simp [count, empty]⟩
    · rw [NumberForm.digitCount, ← mantissa]
      rcases tail with ⟨rfl, _, count⟩ | ⟨form, rfl, _, _, _, _, count⟩
      · simpa [count] using budget
      · simpa [count] using budget
  · rintro ⟨negative, whole, point, exponent, rfl,
      ⟨wholeDigits, pointDigits, nonempty, exponentForm⟩, budget⟩
    have noMinus : (whole ++ (pointText point ++ exponentText exponent)).head? ≠ some '-' :=
      head?_mantissa wholeDigits nonempty (.inl (by decide))
    have stripped := stripMinus_signText noMinus negative
    obtain ⟨final, accepted, mantissa, seen, count⟩ :=
      scanDecimal_form wholeDigits pointDigits nonempty exponentForm
        (signOffset (NumberForm.decimal negative whole point exponent).spell + 1)
    have counted : 0 < whole.length + (point.getD []).length := by
      rw [← length_append]
      exact length_pos_of_ne_nil nonempty
    refine ⟨(), ?_, final, ?_, (), by omega, (), ?_, by omega, ?_⟩
    · rw [NumberForm.spell, stripped]
      intro empty
      cases point <;> simp_all [pointText]
    · rw [NumberForm.spell, stripped]
      exact accepted
    · rintro ⟨inExponent, empty⟩
      cases exponent with
      | none => simp [seen] at inExponent
      | some form =>
        have nonemptyDigits := (exponentForm form rfl).nonempty
        simp [count, nonemptyDigits] at empty
    · rw [mantissa, count]
      exact budget

theorem mem_signText (member : character ∈ signText negative) : character = '-' := by
  cases negative with
  | false => cases member
  | true => exact mem_singleton.mp member

theorem ExponentForm.WellFormed.mem_sign (wellFormed : form.WellFormed)
    (member : character ∈ form.sign.toList) : character = '+' ∨ character = '-' := by
  rw [mem_toList] at member
  rcases wellFormed.sign with sign | sign | sign <;> rw [sign] at member
  · cases member
  · exact .inl (some.inj member).symm
  · exact .inr (some.inj member).symm

theorem mem_spell_decimal
    (wellFormed : (NumberForm.decimal negative whole point exponent).WellFormed)
    (member : character ∈ (NumberForm.decimal negative whole point exponent).spell) :
    isAsciiDigit character ∨ character ∈ ['-', '.', 'e', 'E', '+'] := by
  obtain ⟨wholeDigits, pointDigits, _, exponentForm⟩ := wellFormed
  simp only [NumberForm.spell, mem_append] at member
  rcases member with inSign | inWhole | inPoint | inExponent
  · simp [mem_signText inSign]
  · exact .inl (wholeDigits _ inWhole)
  · cases point with
    | none => simp [pointText] at inPoint
    | some =>
      rcases mem_cons.mp inPoint with rfl | inDigits
      · simp
      · exact .inl (pointDigits _ inDigits)
  · cases exponent with
    | none => simp [exponentText] at inExponent
    | some form =>
      have formed := exponentForm form rfl
      simp only [exponentText, elim_some, ExponentForm.spell, mem_cons, mem_append] at inExponent
      rcases inExponent with rfl | inSign | inDigits
      · rcases formed.marker with marker | marker <;> simp [marker]
      · rcases formed.mem_sign inSign with rfl | rfl <;> simp
      · exact .inl (formed.digits _ inDigits)

theorem mem_spell_fraction
    (wellFormed : (NumberForm.fraction negative numerator denominator).WellFormed)
    (member : character ∈ (NumberForm.fraction negative numerator denominator).spell) :
    isAsciiDigit character ∨ character ∈ ['-', '/'] := by
  obtain ⟨numeratorDigits, _, denominatorDigits, _⟩ := wellFormed
  simp only [NumberForm.spell, mem_append, mem_cons] at member
  rcases member with inSign | inNumerator | rfl | inDenominator
  · simp [mem_signText inSign]
  · exact .inl (numeratorDigits _ inNumerator)
  · simp
  · exact .inl (denominatorDigits _ inDenominator)

theorem not_isWhitespace_of_mem_spell {form : NumberForm} (wellFormed : form.WellFormed)
    (member : character ∈ form.spell) : isWhitespace character = false := by
  have kinds : isAsciiDigit character ∨ character ∈ ['-', '.', 'e', 'E', '+', '/'] := by
    cases form with
    | fraction => exact (mem_spell_fraction wellFormed member).imp_right (by simp; tauto)
    | decimal => exact (mem_spell_decimal wellFormed member).imp_right (by simp; tauto)
  rcases kinds with digit | other
  · exact not_isWhitespace_of_isAsciiDigit digit
  · fin_cases other <;> rfl

theorem slash_not_mem_decimal
    (wellFormed : (NumberForm.decimal negative whole point exponent).WellFormed) :
    '/' ∉ (NumberForm.decimal negative whole point exponent).spell := by
  intro member
  rcases mem_spell_decimal wellFormed member with digit | other
  · exact absurd digit (by decide)
  · exact absurd other (by decide)

theorem spell_head {form : NumberForm} (wellFormed : form.WellFormed) :
    form.spell ≠ [] ∧ form.spell.head? ≠ some '+' := by
  cases form with
  | fraction negative =>
    obtain ⟨numeratorDigits, nonempty, _⟩ := wellFormed
    cases negative with
    | true => simp [NumberForm.spell, signText]
    | false =>
      obtain ⟨character, _, rfl⟩ := exists_cons_of_ne_nil nonempty
      have notPlus : character ≠ '+' :=
        ne_of_isAsciiDigit (digits_cons.mp numeratorDigits).1 (by decide)
      simp [NumberForm.spell, signText, notPlus]
  | decimal negative whole point exponent =>
    obtain ⟨wholeDigits, _, nonempty, _⟩ := wellFormed
    have notPlus := @head?_mantissa '+' (exponentText exponent) whole point wholeDigits nonempty
      (by decide)
    cases negative with
    | true => simp [NumberForm.spell, signText]
    | false =>
      refine ⟨?_, notPlus⟩
      intro empty
      cases point <;> simp_all [NumberForm.spell, signText, pointText]

theorem slash_parts (wellFormed : (NumberForm.fraction negative numerator denominator).WellFormed) :
    (NumberForm.fraction negative numerator denominator).spell =
        (signText negative ++ numerator) ++ '/' :: denominator ∧
      '/' ∉ signText negative ++ numerator ∧ '/' ∉ denominator ∧
      stripMinus (signText negative ++ numerator) = numerator ∧
      ((signText negative ++ numerator).head? = some '-' ↔ negative = true) := by
  obtain ⟨numeratorDigits, nonempty, denominatorDigits, _⟩ := wellFormed
  have noMinus : numerator.head? ≠ some '-' := by
    obtain ⟨character, _, rfl⟩ := exists_cons_of_ne_nil nonempty
    have notMinus : character ≠ '-' :=
      ne_of_isAsciiDigit (digits_cons.mp numeratorDigits).1 (by decide)
    simpa using notMinus
  refine ⟨(append_assoc _ _ _).symm, ?_, denominatorDigits.not_mem (by decide),
    stripMinus_signText noMinus negative, head?_signText noMinus negative⟩
  rw [mem_append, not_or]
  exact ⟨fun inSign => absurd (mem_signText inSign) (by decide),
    numeratorDigits.not_mem (by decide)⟩

/-- Validation accepts exactly the texts of the grammar inside the digit budget. -/
theorem validateDefaultNumberSyntax_eq_ok_iff :
    validateDefaultNumberSyntax text profile = .ok () ↔
      ∃ form : NumberForm, form.spell = text ∧ form.WellFormed ∧
        form.digitCount ≤ profile.maxParsedDigits := by
  constructor
  · intro accepted
    unfold validateDefaultNumberSyntax at accepted
    split at accepted
    · cases accepted
    split at accepted
    · cases accepted
    split at accepted
    · cases accepted
    split at accepted
    · cases accepted
    · rename_i slash single
      obtain ⟨_, _, rfl, _, _, rfl⟩ := slashPositions_eq_singleton_iff.mp single
      obtain ⟨wellFormed, budget⟩ := validateFraction_eq_ok_iff.mp accepted
      refine ⟨_, ?_, wellFormed, budget⟩
      rw [NumberForm.spell, ← append_assoc, signText_append_stripMinus]
    · obtain ⟨negative, whole, point, exponent, spelled, wellFormed, budget⟩ :=
        validateDecimal_eq_ok_iff.mp accepted
      exact ⟨_, spelled, wellFormed, budget⟩
  · rintro ⟨form, rfl, wellFormed, budget⟩
    have noWhitespace : form.spell.findIdx? isWhitespace = none := by
      rw [findIdx?_eq_none_iff]
      exact fun character member => not_isWhitespace_of_mem_spell wellFormed member
    unfold validateDefaultNumberSyntax
    rw [if_neg (spell_head wellFormed).1, noWhitespace]
    rw [if_neg (spell_head wellFormed).2]
    cases form with
    | fraction =>
      obtain ⟨spelled, first, last, stripped, _⟩ := slash_parts wellFormed
      rw [slashPositions_eq_singleton_iff.mpr ⟨_, _, spelled, first, last, rfl⟩]
      rw [spelled, validateFraction_eq_ok_iff, stripped]
      exact ⟨wellFormed, budget⟩
    | decimal negative whole point exponent =>
      rw [slashPositions_eq_nil_iff.mpr (slash_not_mem_decimal wellFormed)]
      exact validateDecimal_eq_ok_iff.mpr
        ⟨negative, whole, point, exponent, rfl, wellFormed, budget⟩

end BoonCircuit.Data
