import BoonCircuit.Data.NumberFormat

/-!
# Parsing printed numbers

The strict parser reads a base prefix before it looks at the digits.  In a radix that
has the digit `b`, `o` or `x` one padding zero in front of that digit looks like such a
prefix, and the parser refuses the text because the bases differ.  Every other text of
the builtin is parsed back with the radix it was printed in.
-/

namespace BoonCircuit.Data

open Lib Numeral Checks List

theorem not_isWhitespace_of_digitValue {letter : Char} (digit : digitValue letter < 36) :
    isWhitespace letter = false ∧ letter ≠ '+' ∧ letter ≠ '-' := by
  have range : ('0' ≤ letter ∧ letter ≤ '9') ∨ ('a' ≤ letter ∧ letter ≤ 'z') ∨
      ('A' ≤ letter ∧ letter ≤ 'Z') := by
    unfold digitValue at digit
    split at digit
    · exact .inl ‹_›
    · split at digit
      · exact .inr (.inl ‹_›)
      · split at digit
        · exact .inr (.inr ‹_›)
        · omega
  have codes : 48 ≤ letter.toNat ∧ letter.toNat ≤ 122 := by
    have bounds {low high : Char} (between : low ≤ letter ∧ letter ≤ high) :
        low.toNat ≤ letter.toNat ∧ letter.toNat ≤ high.toNat :=
      ⟨UInt32.le_iff_toNat_le.mp between.1, UInt32.le_iff_toNat_le.mp between.2⟩
    rcases range with between | between | between
    · exact ⟨(bounds between).1, (bounds between).2.trans (by decide)⟩
    · exact ⟨le_trans (by decide) (bounds between).1, (bounds between).2⟩
    · exact ⟨le_trans (by decide) (bounds between).1, (bounds between).2.trans (by decide)⟩
  refine ⟨?_, ?_, ?_⟩
  · simp only [isWhitespace, Bool.or_eq_false_iff, Bool.and_eq_false_iff, decide_eq_false_iff_not,
      beq_eq_false_iff_ne]
    omega
  · rintro rfl
    exact absurd codes.1 (by decide)
  · rintro rfl
    exact absurd codes.1 (by decide)

/-- What is left of an unsigned text behind a declared base prefix. -/
def radixDigits (unsigned : List Char) : List Char :=
  unsigned.drop (if (declaredPrefixRadix unsigned).isSome then 2 else 0)

/-- A signed text of letters and digits is parsed exactly when a declared base agrees with
the radix and digits of the radix are left. -/
theorem parseRadixNumber_eq_ok_iff {radix : Nat} {negative : Bool} {unsigned : List Char}
    {profile : ExactNumberSemanticProfileV1} {number : ExactNumber}
    (radixOk : 2 ≤ radix ∧ radix ≤ 36) (letters : ∀ letter ∈ unsigned, digitValue letter < 36)
    (nonempty : unsigned ≠ []) :
    parseRadixNumber (signText negative ++ unsigned) radix profile = .ok number ↔
      (∀ declared, declaredPrefixRadix unsigned = some declared → declared = radix) ∧
        radixDigits unsigned ≠ [] ∧
        (∀ letter ∈ radixDigits unsigned, digitValue letter < radix) ∧
        (radixDigits unsigned).length ≤ profile.maxParsedDigits ∧
        ExactNumber.fromRatioWithProfile
          (if negative then -(valueOf radix (radixDigits unsigned) : Int)
            else valueOf radix (radixDigits unsigned)) 1 profile = .ok number := by
  have noMinus : unsigned.head? ≠ some '-' := by
    intro first
    exact (not_isWhitespace_of_digitValue (letters _ (mem_of_mem_head? first))).2.2 rfl
  have noPlus : (signText negative ++ unsigned).head? ≠ some '+' := by
    cases negative with
    | true => simp [signText]
    | false =>
      intro first
      exact (not_isWhitespace_of_digitValue (letters _ (mem_of_mem_head? first))).2.1 rfl
  have noWhitespace : (signText negative ++ unsigned).findIdx? isWhitespace = none := by
    rw [findIdx?_eq_none_iff]
    intro letter member
    rw [mem_append] at member
    rcases member with sign | digit
    · cases negative with
      | true =>
        rw [mem_singleton.mp sign]
        rfl
      | false => cases sign
    · exact (not_isWhitespace_of_digitValue (letters letter digit)).1
  have validated {digits : List Char} {position : Nat} :
      validateRadixDigits digits radix position = .ok () ↔
        ∀ letter ∈ digits, digitValue letter < radix := by
    simp only [validateRadixDigits, forM_eq_forM, forM_eq_ok_iff, reject_eq_ok_iff, not_not]
    constructor
    · intro checked letter member
      obtain ⟨index, found⟩ := mem_iff_getElem?.mp member
      exact checked (letter, index) (mk_mem_zipIdx_iff_getElem?.mpr found)
    · rintro checked ⟨letter, index⟩ member
      exact checked letter (fst_mem_of_mem_zipIdx member)
  have budget {digits : List Char} {position : Nat} (some : digits ≠ []) :
      validateDigitBudget digits.length position profile = .ok () ↔
        digits.length ≤ profile.maxParsedDigits := by
    have positive := length_pos_of_ne_nil some
    unfold validateDigitBudget
    split
    · simp
      omega
    · simp
  unfold parseRadixNumber
  simp only [check_bind_eq_ok_iff, reject_eq_ok_iff, forSome_eq_ok_iff,
    noWhitespace, stripMinus_signText noMinus, head?_signText noMinus, not_not, validated]
  simp only [bind_eq_ok_iff, mapError_eq_ok_iff, okOr_eq_ok_iff]
  constructor
  · rintro ⟨-, -, -, -, agreed, some, digits, counted, _, read, converted⟩
    rw [parseUnsignedBytes_eq_some radixOk.2 digits some, Option.some_inj] at read
    exact ⟨agreed, some, digits, (budget some).mp counted, read ▸ converted⟩
  · rintro ⟨agreed, some, digits, counted, converted⟩
    exact ⟨radixOk, by simp [nonempty], by simp, noPlus, agreed, some, digits,
      (budget some).mpr counted, _, parseUnsignedBytes_eq_some radixOk.2 digits some, converted⟩

/-- Every digit of a declared base is smaller than the letter that declares it. -/
theorem exists_lt_digitValue_of_declaredPrefixRadix {digits : List Char} {declared : Nat}
    (found : declaredPrefixRadix digits = some declared) :
    ∃ letter ∈ digits, declared < digitValue letter := by
  have second {letter : Char} (start : digits.take 2 = ['0', letter]) : letter ∈ digits := by
    apply mem_of_mem_take
    rw [start]
    simp
  unfold declaredPrefixRadix at found
  split at found
  · rename_i binary
    cases found
    rcases binary with start | start
    · exact ⟨'b', second start, by decide⟩
    · exact ⟨'B', second start, by decide⟩
  · split at found
    · rename_i octal
      cases found
      rcases octal with start | start
      · exact ⟨'o', second start, by decide⟩
      · exact ⟨'O', second start, by decide⟩
    · split at found
      · rename_i hexadecimal
        cases found
        rcases hexadecimal with start | start
        · exact ⟨'x', second start, by decide⟩
        · exact ⟨'X', second start, by decide⟩
      · cases found

/-- The digits begin with the characters of a base prefix. -/
def BeginsLikePrefix (digits : List Char) : Prop :=
  digits.take 2 ∈ [['0', 'b'], ['0', 'o'], ['0', 'x']]

instance : DecidablePred BeginsLikePrefix :=
  fun _ => inferInstanceAs (Decidable (_ ∈ _))

variable {format : NumberTextFormat} {value : ExactNumber}

/-- Printed digits are in lower case, so only a lower-case base prefix can be read in them. -/
theorem declaredPrefixRadix_printedDigits (printable : Printable value format) :
    declaredPrefixRadix (printedDigits value format) = none ↔
      ¬ BeginsLikePrefix (printedDigits value format) := by
  have lower {letter : Char} (upper : 'A' ≤ letter ∧ letter ≤ 'Z') :
      (printedDigits value format).take 2 ≠ ['0', letter] := by
    intro start
    have member : letter ∈ printedDigits value format := by
      apply mem_of_mem_take
      rw [start]
      simp
    rw [printedDigits, padDigits, mem_append] at member
    rcases member with padding | digit
    · rw [(mem_replicate.mp padding).2] at upper
      exact absurd upper (by decide)
    · exact lowerCase_of_mem_numeral printable.radix.1 printable.radix.2 digit upper
  have noB := @lower 'B' (by decide)
  have noO := @lower 'O' (by decide)
  have noX := @lower 'X' (by decide)
  unfold declaredPrefixRadix BeginsLikePrefix
  split
  · simp_all
  · split
    · simp_all
    · split <;> simp_all

theorem digitValue_lt_of_mem_printedPrefix {letter : Char}
    (member : letter ∈ printedPrefix format) : digitValue letter < 36 := by
  unfold printedPrefix basePrefix at member
  split at member
  · split at member
    · fin_cases member <;> decide
    · fin_cases member <;> decide
    · fin_cases member <;> decide
    · cases member
  · cases member

theorem valueOf_printedDigits (printable : Printable value format) :
    valueOf format.radix (printedDigits value format) = (printedInteger value format).natAbs := by
  rw [printedDigits, padDigits, valueOf_append, valueOf_replicate_zero, Nat.zero_mul, Nat.zero_add,
    valueOf_numeral printable.radix.1 printable.radix.2]

theorem withinProfile_of_printedDigits (printable : Printable value format)
    (budget : (printedDigits value format).length ≤ maxNumberTextDigits) :
    (ExactNumber.ofInt (printedInteger value format)).WithinProfile .default := by
  have bound : (printedInteger value format).natAbs < 2 ^ (6 * maxNumberTextDigits) := by
    rw [← valueOf_printedDigits printable]
    calc valueOf format.radix (printedDigits value format)
        < format.radix ^ (printedDigits value format).length :=
          valueOf_lt fun letter => digitValue_lt_of_mem_printedDigits printable
      _ ≤ (2 ^ 6) ^ (printedDigits value format).length :=
          Nat.pow_le_pow_left (printable.radix.2.trans (by decide)) _
      _ ≤ (2 ^ 6) ^ maxNumberTextDigits := Nat.pow_le_pow_right (by decide) budget
      _ = 2 ^ (6 * maxNumberTextDigits) := (pow_mul 2 6 _).symm
  constructor
  · have bits : (printedInteger value format).natAbs.size ≤ 6 * maxNumberTextDigits :=
      Nat.size_le.mpr bound
    exact bits.trans (by decide)
  · exact ExactNumber.withinProfile_zero.2

namespace ExactNumber

section RoundTrip

variable {value : ExactNumber} {format : NumberTextFormat} (printable : Printable value format)

include printable in
/-- Behind a printed base prefix the parser finds the printed digits, and without one it finds
them unless they begin like a prefix. -/
theorem radixDigits_printed :
    ((∀ declared, declaredPrefixRadix (printedPrefix format ++ printedDigits value format) =
          some declared → declared = format.radix) ↔
        ¬ (format.hasPrefix = false ∧ BeginsLikePrefix (printedDigits value format))) ∧
      (¬ (format.hasPrefix = false ∧ BeginsLikePrefix (printedDigits value format)) →
        radixDigits (printedPrefix format ++ printedDigits value format) =
          printedDigits value format) := by
  cases given : format.hasPrefix with
  | true =>
    have declared : declaredPrefixRadix (printedPrefix format ++ printedDigits value format) =
        some format.radix ∧ (printedPrefix format).length = 2 := by
      have supported := printable.hasPrefix given
      rw [printedPrefix, if_pos given]
      unfold basePrefix at supported ⊢
      split at supported
      · rename_i radix
        rw [radix]
        exact ⟨rfl, rfl⟩
      · rename_i radix
        rw [radix]
        exact ⟨rfl, rfl⟩
      · rename_i radix
        rw [radix]
        exact ⟨rfl, rfl⟩
      · cases supported
    have digits : radixDigits (printedPrefix format ++ printedDigits value format) =
        printedDigits value format := by
      rw [radixDigits, declared.1, Option.isSome_some, if_pos rfl, ← declared.2, drop_left]
    simp [declared.1, digits]
  | false =>
    have bare : printedPrefix format = [] := by simp [printedPrefix, given]
    rw [bare, nil_append]
    have lowerIff := declaredPrefixRadix_printedDigits printable
    by_cases begins : BeginsLikePrefix (printedDigits value format)
    · -- the letter that declares a base is a digit above that base
      obtain ⟨declared, found⟩ :=
        Option.ne_none_iff_exists'.mp (mt lowerIff.mp (not_not.mpr begins))
      obtain ⟨_, member, _⟩ := exists_lt_digitValue_of_declaredPrefixRadix found
      have digit := digitValue_lt_of_mem_printedDigits printable member
      simp only [found, Option.some.injEq, forall_eq', begins, and_self, not_true_eq_false,
        iff_false, false_implies, and_true]
      omega
    · have none := lowerIff.mpr begins
      simp [none, begins, radixDigits]

/-- A printed text is parsed back with its own radix exactly when no base prefix is read in
the padded digits. -/
theorem parseStrict_formatNumberText_iff (printable : Printable value format)
    (noGroups : format.groupSize = none) (unsigned : format.signedWidth = none)
    (budget : (printedDigits value format).length ≤ maxNumberTextDigits) :
    ∃ text, formatNumberText value format = .ok text ∧
      (parseStrict text (some format.radix) = .ok value ↔
        ¬ (format.hasPrefix = false ∧ BeginsLikePrefix (printedDigits value format))) := by
  refine ⟨_, (formatNumberText_ungrouped_iff printable noGroups).mpr ⟨rfl, fun _ => budget⟩, ?_⟩
  have letters : ∀ letter ∈ printedPrefix format ++ printedDigits value format,
      digitValue letter < 36 := by
    intro letter member
    rw [mem_append] at member
    rcases member with base | digit
    · exact digitValue_lt_of_mem_printedPrefix base
    · exact (digitValue_lt_of_mem_printedDigits printable digit).trans_le printable.radix.2
  have printed : printedInteger value format = value.numerator := by
    simp [printedInteger, unsigned]
  have within := withinProfile_of_printedDigits printable budget
  have whole := eq_ofInt_of_whole printable.whole
  rw [printed] at within
  obtain ⟨agreedIff, digits⟩ := radixDigits_printed printable
  rw [parseStrict, parseStrictWithProfile, printedHead, append_assoc,
    parseRadixNumber_eq_ok_iff printable.radix letters (by simp [printedDigits_ne_nil])]
  constructor
  · exact fun parsed => agreedIff.mp parsed.1
  · intro unambiguous
    rw [digits unambiguous, valueOf_printedDigits printable, printed]
    have signed : (if decide (value.numerator < 0) = true then -(value.numerator.natAbs : Int)
        else value.numerator.natAbs) = value.numerator := by
      simp only [decide_eq_true_eq]
      split <;> omega
    refine ⟨agreedIff.mpr unambiguous, printedDigits_ne_nil,
      fun letter => digitValue_lt_of_mem_printedDigits printable, budget, ?_⟩
    rw [signed, fromRatioWithProfile_one within, ← whole]

end RoundTrip

/-- Hexadecimal, padded to two digits. -/
def paddedHex : NumberTextFormat := { radix := 16, minWidth := 2 }

theorem printable_paddedHex (value : Int) : Printable (ofInt value) paddedHex where
  radix := by decide
  minWidth := by decide
  groupSize := by simp [paddedHex]
  hasPrefix := by decide
  whole := rfl
  signedWidth := by simp [paddedHex]

/-- Ten is printed as `0a` and parsed back. -/
theorem parseStrict_formatNumberText_ten :
    Printable (ofInt 10) paddedHex ∧ paddedHex.groupSize = none ∧
      paddedHex.signedWidth = none ∧
      (printedDigits (ofInt 10) paddedHex).length ≤ maxNumberTextDigits ∧
      ∃ text, formatNumberText (ofInt 10) paddedHex = .ok text ∧
        parseStrict text (some 16) = .ok (ofInt 10) := by
  have printable := printable_paddedHex 10
  have budget : (printedDigits (ofInt 10) paddedHex).length ≤ maxNumberTextDigits := by decide
  obtain ⟨text, formatted, parsedIff⟩ :=
    parseStrict_formatNumberText_iff printable rfl rfl budget
  exact ⟨printable, rfl, rfl, budget, text, formatted, parsedIff.mpr (by decide)⟩

/-- Eleven is printed as `0b`, which the parser takes for a binary prefix. -/
theorem parseStrict_formatNumberText_eleven :
    Printable (ofInt 11) paddedHex ∧ formatNumberText (ofInt 11) paddedHex = .ok ['0', 'b'] ∧
      parseStrict ['0', 'b'] (some 16) =
        .error ⟨.invalidRadix, 2, "base-2 prefix does not match requested radix 16"⟩ := by
  refine ⟨printable_paddedHex 11, ?_, rfl⟩
  rw [formatNumberText_ungrouped_iff (printable_paddedHex 11) rfl]
  decide

end ExactNumber

end BoonCircuit.Data
