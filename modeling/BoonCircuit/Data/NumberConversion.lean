import BoonCircuit.Data.NumberGrammar

/-!
# Conversion of number texts

The second pass of strict parsing on the texts of the grammar.  It finds the same
parts as the first pass, so it returns the denoted rational or reports that the
exponent, the decimal scale or a component is out of bounds, and every such message
is classified as a resource limit.
-/

namespace BoonCircuit.Data

open Lib Numeral NumberForm Checks ExactNumber List Nat

variable {left right text whole : List Char} {separator : Char} {form : NumberForm}
  {negative : Bool} {point : Option (List Char)} {exponent : Option ExponentForm}
  {profile : ExactNumberSemanticProfileV1} {fault : ExactNumberError} {magnitude : Nat}
  {scale : Int} {result : ExactNumber}

theorem findIdx?_append_cons {found : Char → Bool}
    (absent : ∀ character ∈ left, found character = false) (here : found separator = true) :
    (left ++ separator :: right).findIdx? found = some left.length := by
  rw [findIdx?_append, findIdx?_eq_none_iff.mpr absent, findIdx?_cons, here]
  simp

theorem take_drop_append_cons (left right : List Char) (separator : Char) :
    (left ++ separator :: right).take left.length = left ∧
      (left ++ separator :: right).drop (left.length + 1) = right := by
  constructor
  · exact take_left
  · rw [← drop_drop, drop_left]
    rfl

theorem splitOnceUnique_eq_none (absent : separator ∉ text) :
    splitOnceUnique text separator = .ok none := by
  have notFound : text.findIdx? (· = separator) = none := by
    rw [findIdx?_eq_none_iff]
    intro character member
    rw [decide_eq_false_iff_not]
    rintro rfl
    exact absent member
  rw [splitOnceUnique, notFound]

theorem splitOnceUnique_eq_some (first : separator ∉ left) (last : separator ∉ right) :
    splitOnceUnique (left ++ separator :: right) separator = .ok (some (left, right)) := by
  have found : (left ++ separator :: right).findIdx? (· = separator) = some left.length := by
    apply findIdx?_append_cons
    · intro character member
      rw [decide_eq_false_iff_not]
      rintro rfl
      exact first member
    · simp
  obtain ⟨taken, dropped⟩ := take_drop_append_cons left right separator
  rw [splitOnceUnique, found]
  dsimp only
  rw [taken, dropped, if_neg last]

theorem trim_eq_self
    (noWhitespace : ∀ character ∈ text, isWhitespace character = false) : trim text = text := by
  have dropped {other : List Char}
      (clean : ∀ character ∈ other, isWhitespace character = false) :
      other.dropWhile isWhitespace = other := by
    cases other with
    | nil => rfl
    | cons character => simp [clean character]
  rw [trim, dropped noWhitespace, dropped (by simpa using noWhitespace), reverse_reverse]

theorem parseUnsignedBytes_eq_some {radix : Nat} (radixLe : radix ≤ 36)
    (digits : ∀ character ∈ text, digitValue character < radix) (nonempty : text ≠ []) :
    parseUnsignedBytes text radix = some (valueOf radix text) := by
  obtain ⟨character, rest, rfl⟩ := exists_cons_of_ne_nil nonempty
  have notPlus : character ≠ '+' := by
    rintro rfl
    exact absurd (digits '+' mem_cons_self) (by simp [digitValue]; omega)
  have notUnderscore : ∀ other ∈ character :: rest, other ≠ '_' := by
    rintro _ member rfl
    exact absurd (digits '_' member) (by simp [digitValue]; omega)
  have allDigits : (character :: rest).all
      (fun other => other = '_' || digitValue other < radix) = true := by
    rw [all_eq_true]
    intro other member
    simp [digits other member]
  have kept : (character :: rest).filter (· ≠ '_') = character :: rest := by
    rw [filter_eq_self]
    intro other member
    simpa using notUnderscore other member
  have first := notUnderscore character mem_cons_self
  unfold parseUnsignedBytes
  simp only [head?_cons, Option.some.injEq, notPlus, false_and, if_false, reduceCtorEq, first,
    or_self, allDigits, if_true, kept]

theorem Digits.digitValue_lt (digits : Digits text) :
    ∀ character ∈ text, digitValue character < 10 :=
  fun character member => isAsciiDigit_iff.mp (digits character member)

theorem parseUnsignedBytes_digits (digits : Digits text)
    (nonempty : text ≠ []) : parseUnsignedBytes text 10 = some (valueOf 10 text) :=
  parseUnsignedBytes_eq_some (by decide) digits.digitValue_lt nonempty

theorem Digits.head?_ne (digits : Digits text) {other : Char}
    (outside : other.toNat < 48 ∨ 57 < other.toNat) : text.head? ≠ some other := by
  intro first
  exact digits.not_mem outside (mem_of_mem_head? first)

theorem parseSignedInteger_digits (digits : Digits text) (nonempty : text ≠ []) (negative : Bool) :
    parseSignedInteger (signText negative ++ text) =
      .ok (if negative then -(valueOf 10 text : Int) else valueOf 10 text) := by
  have read := parseUnsignedBytes_digits digits nonempty
  have notMinus : text.head? ≠ some '-' := digits.head?_ne (by decide)
  have notPlus : text.head? ≠ some '+' := digits.head?_ne (by decide)
  cases negative with
  | false =>
    have notEmpty : ¬ (text = [] ∨ text = ['-'] ∨ text = ['+']) := by
      rintro (rfl | rfl | rfl)
      · exact nonempty rfl
      · exact notMinus rfl
      · exact notPlus rfl
    simp [signText, parseSignedInteger, notEmpty, notPlus, notMinus, parseSignedBytes, read]
  | true => simp [signText, parseSignedInteger, nonempty, notPlus, parseSignedBytes, read, okOr]

theorem parseUnsignedInteger_digits (digits : Digits text)
    (nonempty : text ≠ []) : parseUnsignedInteger text = .ok (valueOf 10 text) := by
  simp [parseUnsignedInteger, nonempty, parseUnsignedBytes_digits digits nonempty]

theorem parseI32_form {form : ExponentForm} (wellFormed : form.WellFormed) :
    parseI32 (form.sign.toList ++ form.digits) =
      if FitsI32 form.value then some form.value else none := by
  have digits := wellFormed.digits
  have nonempty := wellFormed.nonempty
  have notMinus : form.digits.head? ≠ some '-' := digits.head?_ne (by decide)
  have notPlus : form.digits.head? ≠ some '+' := digits.head?_ne (by decide)
  have allDigits : form.digits.all isAsciiDigit = true := all_eq_true.mpr digits
  unfold parseI32 ExponentForm.value
  rcases wellFormed.sign with sign | sign | sign
  · simp [sign, notMinus, notPlus, nonempty, allDigits]
  · simp [sign, nonempty, allDigits]
  · simp [sign, nonempty, allDigits]

theorem countP_digits (digits : Digits text) : text.countP isAsciiDigit = text.length :=
  countP_eq_length.mpr digits

theorem countP_signText (negative : Bool) : (signText negative).countP isAsciiDigit = 0 := by
  cases negative <;> rfl

theorem countP_exponentForm {form : ExponentForm} (wellFormed : form.WellFormed) :
    form.spell.countP isAsciiDigit = form.digits.length := by
  have marker : isAsciiDigit form.marker = false := by
    rcases wellFormed.marker with marker | marker <;> rw [marker] <;> decide
  have sign : form.sign.toList.countP isAsciiDigit = 0 := by
    rcases wellFormed.sign with sign | sign | sign <;> rw [sign] <;> decide
  simp [ExponentForm.spell, marker, sign, countP_digits wellFormed.digits]

theorem countP_spell (wellFormed : form.WellFormed) :
    form.spell.countP isAsciiDigit = form.digitCount := by
  cases form with
  | fraction =>
    obtain ⟨numeratorDigits, _, denominatorDigits, _⟩ := wellFormed
    have slash : isAsciiDigit '/' = false := by decide
    simp [spell, digitCount, countP_signText,
      countP_digits numeratorDigits, countP_digits denominatorDigits, slash]
  | decimal negative whole point exponent =>
    obtain ⟨wholeDigits, pointDigits, _, exponentForm⟩ := wellFormed
    have pointCount : (pointText point).countP isAsciiDigit = (point.getD []).length := by
      have dot : isAsciiDigit '.' = false := by decide
      cases point with
      | none => rfl
      | some digits =>
        have fractionDigits : Digits digits := pointDigits
        simp [pointText, dot, countP_digits fractionDigits]
    have exponentCount : (exponentText exponent).countP isAsciiDigit =
        exponent.elim 0 (·.digits.length) := by
      cases exponent with
      | none => rfl
      | some form => exact countP_exponentForm (exponentForm form rfl)
    simp only [spell, digitCount, countP_append, countP_signText, countP_digits wholeDigits]
    omega

theorem digitCount_pos (wellFormed : form.WellFormed) : 0 < form.digitCount := by
  cases form with
  | fraction =>
    have counted := length_pos_of_ne_nil wellFormed.2.1
    simp only [digitCount]
    omega
  | decimal =>
    have counted := length_pos_of_ne_nil wellFormed.2.2.1
    rw [length_append] at counted
    simp only [digitCount]
    omega

theorem not_isExponentMarker_of_isAsciiDigit {character : Char}
    (digit : isAsciiDigit character) : isExponentMarker character = false := by
  have notLower : character ≠ 'e' := ne_of_isAsciiDigit digit (by decide)
  have notUpper : character ≠ 'E' := ne_of_isAsciiDigit digit (by decide)
  simp [isExponentMarker, notLower, notUpper]

theorem not_isExponentMarker_mantissa (wholeDigits : Digits whole)
    (pointDigits : Digits (point.getD [])) :
    ∀ character ∈ signText negative ++ (whole ++ pointText point),
      isExponentMarker character = false := by
  intro character member
  rcases mem_append.mp member with inSign | inMantissa
  · rw [mem_signText inSign]
    decide
  · rcases mem_append.mp inMantissa with inWhole | inPoint
    · exact not_isExponentMarker_of_isAsciiDigit (wholeDigits _ inWhole)
    · cases point with
      | none => cases inPoint
      | some =>
        rcases mem_cons.mp inPoint with rfl | inDigits
        · decide
        · exact not_isExponentMarker_of_isAsciiDigit (pointDigits _ inDigits)

/-- The text behind the marker of an optional exponent. -/
def exponentBody (exponent : Option ExponentForm) : Option (List Char) :=
  exponent.map fun form => form.sign.toList ++ form.digits

theorem splitExponent_form {mantissa : List Char}
    (noMarker : ∀ character ∈ mantissa, isExponentMarker character = false)
    (exponentForm : ∀ form ∈ exponent, form.WellFormed) :
    splitExponent (mantissa ++ exponentText exponent) = .ok (mantissa, exponentBody exponent) := by
  cases exponent with
  | none =>
    have notFound : mantissa.findIdx? isExponentMarker = none :=
      findIdx?_eq_none_iff.mpr noMarker
    simp [splitExponent, exponentText, exponentBody, notFound]
  | some form =>
    have wellFormed := exponentForm form rfl
    have marker : isExponentMarker form.marker = true := by
      rcases wellFormed.marker with marker | marker <;> rw [marker] <;> decide
    have noSecond : (form.sign.toList ++ form.digits).any isExponentMarker = false := by
      rw [any_eq_false]
      intro character member
      rw [Bool.not_eq_true]
      rcases mem_append.mp member with inSign | inDigits
      · rcases wellFormed.mem_sign inSign with rfl | rfl <;> decide
      · exact not_isExponentMarker_of_isAsciiDigit (wellFormed.digits _ inDigits)
    have found := @findIdx?_append_cons mantissa
      (form.sign.toList ++ form.digits) form.marker isExponentMarker noMarker marker
    obtain ⟨taken, dropped⟩ :=
      take_drop_append_cons mantissa (form.sign.toList ++ form.digits) form.marker
    simp only [exponentText, Option.elim_some, ExponentForm.spell]
    rw [splitExponent, found]
    dsimp only
    rw [taken, dropped, noSecond]
    rfl

/-- Only an exponent of more than 32 bits is refused. -/
theorem parseExponent_form (exponentForm : ∀ form ∈ exponent, form.WellFormed) :
    parseExponent (exponentBody exponent) =
      okOr (if FitsI32 (exponentValue exponent)
        then some (exponentValue exponent) else none)
        ⟨"exact Number exponent is out of range"⟩ := by
  cases exponent with
  | none => rfl
  | some form =>
    have wellFormed := exponentForm form rfl
    have nonempty : form.sign.toList ++ form.digits ≠ [] := by
      simp [wellFormed.nonempty]
    change (if form.sign.toList ++ form.digits ≠ [] then
      okOr (parseI32 (form.sign.toList ++ form.digits)) _ else _) = _
    rw [if_pos nonempty, parseI32_form wellFormed]
    rfl

theorem splitOnceUnique_mantissa (wholeDigits : Digits whole) (pointDigits : Digits (point.getD []))
    :
    ∃ parts, splitOnceUnique (whole ++ pointText point) '.' = .ok parts ∧
      parts.getD (whole ++ pointText point, []) = (whole, point.getD []) := by
  cases point with
  | none =>
    refine ⟨none, ?_, by simp [pointText]⟩
    apply splitOnceUnique_eq_none
    rw [pointText, Option.elim_none, append_nil]
    exact wholeDigits.not_mem (by decide)
  | some digits =>
    have fractionDigits : Digits digits := pointDigits
    exact ⟨some (whole, digits), splitOnceUnique_eq_some (wholeDigits.not_mem (by decide))
      (fractionDigits.not_mem (by decide)), rfl⟩

theorem parseDecimal_form (wellFormed : (decimal negative whole point exponent).WellFormed)
    (short : (point.getD []).length < 2 ^ 63) :
    parseDecimal (decimal negative whole point exponent).spell profile =
      (okOr (if FitsI32 (exponentValue exponent)
          then some (exponentValue exponent) else none)
          ⟨"exact Number exponent is out of range"⟩ >>= fun power =>
        scaledRatio (valueOf 10 (whole ++ point.getD [])) ((point.getD []).length - power) negative
          profile) := by
  obtain ⟨wholeDigits, pointDigits, nonempty, exponentForm⟩ := wellFormed
  have spelled : (decimal negative whole point exponent).spell =
      (signText negative ++ (whole ++ pointText point)) ++ exponentText exponent := by
    simp [spell]
  have mantissaHead (other : Char) (outside : other.toNat < 46 ∨ 57 < other.toNat) :
      (whole ++ pointText point).head? ≠ some other := by
    simpa using @head?_mantissa other [] whole point wholeDigits nonempty outside
  have noMinus := mantissaHead '-' (by decide)
  have noPlus := mantissaHead '+' (by decide)
  have signEq := head?_signText noMinus negative
  have noLeadingPlus : (signText negative ++ (whole ++ pointText point)).head? ≠ some '+' := by
    cases negative with
    | false => exact noPlus
    | true => simp [signText]
  obtain ⟨_, split, partsEq⟩ := splitOnceUnique_mantissa wholeDigits pointDigits
  have notEmpty : ¬ (whole = [] ∧ point.getD [] = []) := by
    rintro ⟨wholeEmpty, pointEmpty⟩
    exact nonempty (by simp [wholeEmpty, pointEmpty])
  have allDigits : (!whole.all isAsciiDigit || !(point.getD []).all isAsciiDigit) = false := by
    simp [all_eq_true.mpr wholeDigits, all_eq_true.mpr pointDigits]
  have magnitude := parseUnsignedBytes_digits (wholeDigits.append pointDigits) nonempty
  rw [spelled, parseDecimal, splitExponent_form
    (not_isExponentMarker_mantissa wholeDigits pointDigits) exponentForm]
  change (parseExponent (exponentBody exponent) >>= fun power => _) = _
  rw [parseExponent_form exponentForm]
  simp only [stripMinus_signText noMinus negative, noPlus, noLeadingPlus, or_self, split, partsEq,
    reject, if_false, bind, Except.bind, notEmpty, allDigits, Bool.false_eq_true, magnitude,
    okOr, not_le.mpr short, signEq, Bool.decide_eq_true]

theorem classify_eq_resourceLimit {message : String} (noV : 'v' ∉ message.toList)
    (named : contains message "budget" = true ∨ contains message "out of range" = true) :
    classify message = .resourceLimit := by
  have notZero : contains message "denominator must be positive" = false := by
    rw [contains, decide_eq_false_iff_not]
    intro inside
    exact noV (inside.subset (by decide))
  rcases named with named | named <;> simp [classify, notZero, named]

theorem not_mem_toString (value : Nat) : 'v' ∉ (toString value).toList := by
  intro member
  change 'v' ∈ (Nat.repr value).toList at member
  rw [repr_eq_ofList_toDigits, String.toList_ofList] at member
  exact absurd (isDigit_of_mem_toDigits (by decide) (by decide) member) (by decide)

theorem contains_append {opening rest phrase : String} (inside : contains opening phrase = true) :
    contains (opening ++ rest) phrase = true := by
  rw [contains, decide_eq_true_iff] at inside ⊢
  rw [String.toList_append]
  exact inside.trans (prefix_append _ _).isInfix

theorem classify_fromRatioWithProfile {numerator : Int} {denominator : Nat}
    (denominatorPos : 0 < denominator)
    (failed : fromRatioWithProfile numerator denominator profile = .error fault) :
    classify fault.message = .resourceLimit := by
  rw [fromRatioWithProfile_eq denominatorPos] at failed
  split at failed
  · cases failed
  split at failed
  · cases failed
  rename_i given outside
  cases failed
  simp only [checkProfile] at outside
  split at outside
  case' isFalse =>
    split at outside
    case isFalse => cases outside
  all_goals
    cases outside
    apply classify_eq_resourceLimit
    · simp only [String.toList_append, mem_append, not_or]
      exact ⟨⟨⟨by decide, not_mem_toString _⟩, by decide⟩, not_mem_toString _⟩
    · left
      apply contains_append
      apply contains_append
      apply contains_append
      decide

theorem scaledParts_denominator_pos (magnitude : Nat) (scale : Int) :
    0 < (scaledParts magnitude scale).2 := by
  unfold scaledParts
  split
  · exact Nat.pow_pos (by decide)
  · exact one_pos

theorem scaledParts_value (magnitude : Nat) (scale : Int) :
    ((scaledParts magnitude scale).1 : ℚ) / (scaledParts magnitude scale).2 =
      (magnitude : ℚ) * 10 ^ (-scale) := by
  unfold scaledParts
  split
  · have cast : (scale.natAbs : Int) = scale := by omega
    have power : (10 : ℚ) ^ scale.natAbs = 10 ^ scale := by
      rw [← zpow_natCast, cast]
    rw [zpow_neg, ← power]
    push_cast
    rfl
  · have cast : -scale = (scale.natAbs : Int) := by omega
    rw [cast, zpow_natCast]
    push_cast
    rw [div_one]

private theorem signed_div (negative : Bool) (magnitude denominator : Nat) :
    ((if negative then -(magnitude : Int) else magnitude : Int) : ℚ) / denominator =
      signed negative ((magnitude : ℚ) / denominator) := by
  cases negative <;> simp [signed, neg_div]

theorem scaledRatio_eq_ok_iff :
    scaledRatio magnitude scale negative .default = .ok result ↔
      scale.natAbs ≤ ExactNumberSemanticProfileV1.default.maxParsedDigits ∧
        result.toRat = signed negative ((magnitude : ℚ) * 10 ^ (-scale)) ∧
        result.WithinProfile .default := by
  have budget : ExactNumberSemanticProfileV1.default.maxParsedDigits = 4096 := rfl
  unfold scaledRatio
  split
  · simp only [reduceCtorEq, false_iff]
    omega
  split
  · simp only [reduceCtorEq, false_iff]
    omega
  rename_i inBudget
  rw [← scaledParts_value, ← signed_div, and_iff_right (not_lt.mp inBudget)]
  exact fromRatio_eq_ok_iff (scaledParts_denominator_pos magnitude scale)

theorem classify_scaledRatio (failed : scaledRatio magnitude scale negative profile = .error fault)
    : classify fault.message = .resourceLimit := by
  unfold scaledRatio at failed
  split at failed
  · cases failed
    decide
  split at failed
  · cases failed
    decide
  exact classify_fromRatioWithProfile (scaledParts_denominator_pos magnitude scale) failed

theorem Digits.any_contains_eq_false {others : List Char} (digits : Digits text)
    (outside : ∀ other ∈ others, other.toNat < 48 ∨ 57 < other.toNat) :
    text.any (others.contains ·) = false := by
  rw [any_eq_false]
  intro character member
  rw [contains_iff_mem]
  intro listed
  exact ne_of_isAsciiDigit (digits character member) (outside character listed) rfl

theorem parseWithProfile_fraction {numerator denominator : List Char}
    (wellFormed : (fraction negative numerator denominator).WellFormed)
    (budget : (fraction negative numerator denominator).digitCount ≤ profile.maxParsedDigits) :
    parseWithProfile (fraction negative numerator denominator).spell profile =
      fromRatioWithProfile
        (if negative then -(valueOf 10 numerator : Int) else valueOf 10 numerator)
        (valueOf 10 denominator) profile := by
  have counted := countP_spell wellFormed
  have countPos := digitCount_pos wellFormed
  have nonempty := (spell_head wellFormed).1
  have trimmed := trim_eq_self fun _ => not_isWhitespace_of_mem_spell wellFormed
  obtain ⟨spelled, first, last, _⟩ := slash_parts wellFormed
  obtain ⟨numeratorDigits, numeratorNonempty, denominatorDigits, denominatorNonempty, _⟩ :=
    wellFormed
  have signPlain : (signText negative).any (['.', 'e', 'E'].contains ·) = false := by
    cases negative <;> rfl
  have leftPlain : (signText negative ++ numerator).any (['.', 'e', 'E'].contains ·) = false := by
    rw [any_append, signPlain, numeratorDigits.any_contains_eq_false]
    · rfl
    · intro other member
      fin_cases member <;> decide
  have rightPlain : denominator.any (['.', 'e', 'E', '+', '-'].contains ·) = false := by
    apply denominatorDigits.any_contains_eq_false
    intro other member
    fin_cases member <;> decide
  have unchecked : ¬ ((fraction negative numerator denominator).digitCount = 0 ∨
      profile.maxParsedDigits < (fraction negative numerator denominator).digitCount) := by
    omega
  unfold parseWithProfile
  simp only [nonempty, trimmed, ne_eq, not_true_eq_false, or_self, counted, unchecked, reject, bind,
    Except.bind]
  rw [spelled, splitOnceUnique_eq_some first last]
  simp only [leftPlain, rightPlain, Bool.or_self, Bool.false_eq_true, if_false,
    parseSignedInteger_digits numeratorDigits numeratorNonempty,
    parseUnsignedInteger_digits denominatorDigits denominatorNonempty]

theorem parseWithProfile_decimal (wellFormed : (decimal negative whole point exponent).WellFormed)
    (budget : (decimal negative whole point exponent).digitCount ≤ profile.maxParsedDigits) :
    parseWithProfile (decimal negative whole point exponent).spell profile =
      parseDecimal (decimal negative whole point exponent).spell profile := by
  have counted := countP_spell wellFormed
  have countPos := digitCount_pos wellFormed
  have nonempty := (spell_head wellFormed).1
  have trimmed := trim_eq_self fun _ => not_isWhitespace_of_mem_spell wellFormed
  have unsplit := splitOnceUnique_eq_none (slash_not_mem_decimal wellFormed)
  have unchecked : ¬ ((decimal negative whole point exponent).digitCount = 0 ∨
      profile.maxParsedDigits < (decimal negative whole point exponent).digitCount) := by
    omega
  unfold parseWithProfile
  simp only [nonempty, trimmed, ne_eq, not_true_eq_false, or_self, counted, unchecked,
    reject, if_false, bind, Except.bind, unsplit]

/-- Inside the digit budget the second pass returns the denoted rational, when the scale and
the components are inside their budgets. -/
theorem parseWithProfile_eq_ok_iff (wellFormed : form.WellFormed)
    (budget : form.digitCount ≤ ExactNumberSemanticProfileV1.default.maxParsedDigits) :
    parseWithProfile form.spell .default = .ok result ↔
      form.ScaleWithin .default ∧ result.toRat = form.value ∧ result.WithinProfile .default := by
  cases form with
  | fraction negative numerator denominator =>
    rw [parseWithProfile_fraction wellFormed budget]
    obtain ⟨_, _, denominatorDigits, _, positive⟩ := wellFormed
    have denominatorPos : 0 < valueOf 10 denominator :=
      pos_of_ne_zero fun isZero => positive ((valueOf_eq_zero_iff denominatorDigits).mp isZero)
    refine (fromRatio_eq_ok_iff denominatorPos).trans ?_
    rw [signed_div]
    simp [ScaleWithin, value]
  | decimal negative whole point =>
    have short : (point.getD []).length < 2 ^ 63 := by
      change whole.length + (point.getD []).length + _ ≤ 4096 at budget
      omega
    rw [parseWithProfile_decimal wellFormed budget, parseDecimal_form wellFormed short,
      bind_eq_ok_iff]
    simp only [okOr_eq_ok_iff, Option.ite_none_right_eq_some, Option.some.injEq,
      scaledRatio_eq_ok_iff]
    have scaledValue (magnitude length : Nat) (power : Int) :
        (magnitude : ℚ) * 10 ^ (-((length : Int) - power)) =
          (magnitude : ℚ) / 10 ^ length * 10 ^ power := by
      rw [neg_sub, zpow_sub₀ (by norm_num), zpow_natCast]
      ring
    constructor
    · rintro ⟨_, ⟨fits, rfl⟩, scale, exact, within⟩
      rw [scaledValue] at exact
      exact ⟨⟨fits, scale⟩, exact, within⟩
    · rintro ⟨⟨fits, scale⟩, exact, within⟩
      refine ⟨_, ⟨fits, rfl⟩, scale, ?_, within⟩
      rw [scaledValue]
      exact exact

/-- The second pass fails on validated texts only with a resource limit. -/
theorem classify_parseWithProfile (wellFormed : form.WellFormed)
    (budget : form.digitCount ≤ ExactNumberSemanticProfileV1.default.maxParsedDigits)
    (failed : parseWithProfile form.spell .default = .error fault) :
    classify fault.message = .resourceLimit := by
  cases form with
  | fraction =>
    rw [parseWithProfile_fraction wellFormed budget] at failed
    obtain ⟨_, _, denominatorDigits, _, positive⟩ := wellFormed
    apply classify_fromRatioWithProfile _ failed
    exact pos_of_ne_zero fun isZero =>
      positive ((valueOf_eq_zero_iff denominatorDigits).mp isZero)
  | decimal negative whole point exponent =>
    have short : (point.getD []).length < 2 ^ 63 := by
      change whole.length + (point.getD []).length + _ ≤ 4096 at budget
      omega
    rw [parseWithProfile_decimal wellFormed budget, parseDecimal_form wellFormed short] at failed
    by_cases fits : FitsI32 (exponentValue exponent)
    · rw [if_pos fits] at failed
      exact classify_scaledRatio failed
    · rw [if_neg fits] at failed
      cases failed
      decide

namespace ExactNumber

theorem parseStrict_none_eq_ok_iff :
    parseStrict text none = .ok result ↔
      ∃ form : NumberForm, form.spell = text ∧ form.WellFormed ∧ form.WithinBudgets ∧
        result.toRat = form.value := by
  change (validateDefaultNumberSyntax text _ >>= fun _ => _) = _ ↔ _
  rw [check_bind_eq_ok_iff, mapError_eq_ok_iff, validateDefaultNumberSyntax_eq_ok_iff]
  constructor
  · rintro ⟨⟨form, rfl, wellFormed, budget⟩, converted⟩
    obtain ⟨scale, exact, within⟩ := (parseWithProfile_eq_ok_iff wellFormed budget).mp converted
    refine ⟨form, rfl, wellFormed, ⟨budget, scale, ?_⟩, exact⟩
    rw [← eq_ofRat_iff.mpr exact]
    exact within
  · rintro ⟨form, rfl, wellFormed, ⟨budget, scale, within⟩, exact⟩
    refine ⟨⟨form, rfl, wellFormed, budget⟩, ?_⟩
    rw [parseWithProfile_eq_ok_iff wellFormed budget]
    rw [← eq_ofRat_iff.mpr exact] at within
    exact ⟨scale, exact, within⟩

/-- Strict parsing accepts the texts of the grammar inside the budgets and returns what they
denote; a validated text is parsed or rejected with a resource limit. -/
theorem parseStrict_none_grammar (text : List Char) :
    (∀ result, parseStrict text none = .ok result ↔
      ∃ form : NumberForm, form.spell = text ∧ form.WellFormed ∧ form.WithinBudgets ∧
        result.toRat = form.value) ∧
    (validateDefaultNumberSyntax text .default = .ok () →
      (∃ result, parseStrict text none = .ok result) ∨
        ∃ fault, parseStrict text none = .error fault ∧ fault.reason = .resourceLimit) := by
  refine ⟨fun result => parseStrict_none_eq_ok_iff, ?_⟩
  intro validated
  obtain ⟨form, rfl, wellFormed, budget⟩ := validateDefaultNumberSyntax_eq_ok_iff.mp validated
  have secondPass : parseStrict form.spell none =
      (parseWithProfile form.spell .default).mapError fun fault =>
        parseFailure (classify fault.message) 1 fault.message := by
    change (validateDefaultNumberSyntax form.spell _ >>= fun _ => _) = _
    rw [validated]
    rfl
  rw [secondPass]
  cases converted : parseWithProfile form.spell .default with
  | ok result => exact .inl ⟨result, rfl⟩
  | error => exact .inr ⟨_, rfl, classify_parseWithProfile wellFormed budget converted⟩

end ExactNumber

end BoonCircuit.Data
