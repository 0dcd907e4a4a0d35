import BoonCircuit.Data.CanonicalText

/-!
# Printed numbers

What the text builtin prints: sign, base prefix, and zero-padded digits, which may be
split into groups.  The groups are right-aligned exactly when at most one digit stands
before the full groups, since otherwise the grouping loop subtracts below zero.
-/

namespace BoonCircuit.Data

open Lib Numeral Checks ExactNumber List NumberTextFormat

/-- Digits with a space wherever a multiple of the group size is left. -/
def joinGroups (groupSize : Nat) : Bool → List Char → List Char
  | _, [] => []
  | atStart, digit :: rest =>
    (if !atStart && (rest.length + 1) % groupSize = 0 then [' ', digit] else [digit]) ++
      joinGroups groupSize false rest

/-- The text is the digits in groups of the given size, the first of which may be shorter. -/
def RightGrouped (groupSize : Nat) (digits text : List Char) : Prop :=
  ∃ (first : List Char) (others : List (List Char)),
    text = [' '].intercalate (first :: others) ∧ (first :: others).flatten = digits ∧
      (∀ group ∈ others, group.length = groupSize) ∧
      1 ≤ first.length ∧ first.length ≤ groupSize

variable {groupSize width : Nat} {digits text : List Char} {value : ExactNumber}
  {format : NumberTextFormat}

theorem joinGroups_false (nonempty : digits ≠ []) :
    joinGroups groupSize false digits =
      (if digits.length % groupSize = 0 then [' '] else []) ++
        joinGroups groupSize true digits := by
  cases digits with
  | nil => exact absurd rfl nonempty
  | cons digit rest => by_cases full : (rest.length + 1) % groupSize = 0 <;> simp [joinGroups, full]

theorem intercalate_cons_cons (first second : List Char) (others : List (List Char)) :
    [' '].intercalate (first :: second :: others) =
      first ++ ' ' :: [' '].intercalate (second :: others) := by
  simp

theorem length_flatten_of_forall {groups : List (List Char)}
    (full : ∀ group ∈ groups, group.length = groupSize) :
    groups.flatten.length = groups.length * groupSize := by
  induction groups with
  | nil => simp
  | cons group groups ih =>
    rw [forall_mem_cons] at full
    rw [flatten_cons, length_append, full.1, ih full.2, length_cons]
    ring

/-- Walking from the left and counting what is left gives right-aligned groups. -/
theorem rightGrouped_joinGroups (groupPos : 0 < groupSize)
    (nonempty : digits ≠ []) :
    RightGrouped groupSize digits (joinGroups groupSize true digits) := by
  induction digits with
  | nil => exact absurd rfl nonempty
  | cons digit rest ih =>
    by_cases last : rest = []
    · subst last
      exact ⟨[digit], [], by simp [joinGroups, intercalate], rfl, by simp, le_refl 1, groupPos⟩
    · obtain ⟨first, others, joined, flattened, full, _, firstLe⟩ := ih last
      have length : rest.length = first.length + others.length * groupSize := by
        rw [← flattened, flatten_cons, length_append, length_flatten_of_forall full]
      have aligned : rest.length % groupSize = first.length % groupSize := by
        rw [length, Nat.add_mul_mod_self_right]
      have start : joinGroups groupSize true (digit :: rest) =
          digit :: joinGroups groupSize false rest := by
        simp [joinGroups]
      rw [start, joinGroups_false last, aligned, joined]
      by_cases complete : first.length = groupSize
      · -- the group to the right is complete, so the digit opens a new one
        rw [complete, Nat.mod_self]
        refine ⟨[digit], first :: others, ?_, ?_, ?_, le_refl 1, groupPos⟩
        · rw [intercalate_cons_cons]
          rfl
        · rw [flatten_cons, flattened]
          rfl
        · exact forall_mem_cons.mpr ⟨complete, full⟩
      · have short : first.length % groupSize = first.length :=
          Nat.mod_eq_of_lt (lt_of_le_of_ne firstLe complete)
        rw [if_neg (by omega)]
        refine ⟨digit :: first, others, ?_, ?_, full, ?_, ?_⟩
        · cases others with
          | nil => simp [intercalate]
          | cons => rw [intercalate_cons_cons, intercalate_cons_cons]; rfl
        · rw [flatten_cons, cons_append, ← flatten_cons, flattened]
        · simp
        · simp only [length_cons]
          omega

theorem filter_joinGroups {atStart : Bool}
    (noSpace : ' ' ∉ digits) : (joinGroups groupSize atStart digits).filter (· ≠ ' ') = digits := by
  induction digits generalizing atStart with
  | nil => rfl
  | cons digit rest ih =>
    rw [mem_cons, not_or] at noSpace
    have kept : digit ≠ ' ' := Ne.symm noSpace.1
    rw [joinGroups, filter_append, ih noSpace.2]
    split <;> simp [kept]

/-- Without a subtraction below zero the separators stand where multiples of the group size
are left. -/
theorem startsGroup_eq_some {index left : Nat} (short : (index + left) % groupSize ≤ 1) :
    startsGroup groupSize ((index + left) % groupSize) index =
      some (!decide (index = 0) && decide (left % groupSize = 0)) := by
  have whole := Nat.div_add_mod (index + left) groupSize
  generalize firstEq : (index + left) % groupSize = firstGroup at short whole
  unfold startsGroup
  by_cases start : index = 0
  · simp [start]
  -- the index and the rest together are a multiple of the group size behind the first group
  have complete : groupSize ∣ (index - firstGroup) + left :=
    ⟨(index + left) / groupSize, by omega⟩
  have alignedIff : (index - firstGroup) % groupSize = 0 ↔ left % groupSize = 0 := by
    rw [← Nat.dvd_iff_mod_eq_zero, ← Nat.dvd_iff_mod_eq_zero]
    exact ⟨fun front => (Nat.dvd_add_right front).mp complete,
      fun rest => (Nat.dvd_add_left rest).mp complete⟩
  by_cases here : index = firstGroup
  · subst here
    have aligned : left % groupSize = 0 := by
      rw [← alignedIff, Nat.sub_self, Nat.zero_mod]
    simp [start, aligned]
  · have inside : ¬ index < firstGroup := by omega
    simp [start, here, inside, alignedIff]

private theorem foldlM_pushDigit {total index : Nat} {output : List Char}
    (short : total % groupSize ≤ 1) (counted : index + digits.length = total) :
    (digits.zipIdx index).foldlM (pushDigit groupSize (total % groupSize)) output =
      some (output ++ joinGroups groupSize (index = 0) digits) := by
  induction digits generalizing index output with
  | nil => simp [joinGroups]
  | cons digit rest ih =>
    have here := @startsGroup_eq_some groupSize index (rest.length + 1)
    rw [length_cons] at counted
    rw [counted] at here
    rw [zipIdx_cons, foldlM_cons, pushDigit, here short]
    change (rest.zipIdx (index + 1)).foldlM _ _ = _
    rw [ih (by omega), joinGroups]
    simp

/-- The loop succeeds exactly when the first group has at most one digit of its own. -/
theorem groupDigits_eq_some_iff :
    groupDigits groupSize digits = some text ↔
      digits.length % groupSize ≤ 1 ∧ text = joinGroups groupSize true digits := by
  by_cases short : digits.length % groupSize ≤ 1
  · rw [groupDigits, foldlM_pushDigit short (Nat.zero_add _)]
    simp [short, eq_comm]
  · simp only [short, false_and, iff_false]
    -- the digit at index one already subtracts more than its index
    have long : 1 < digits.length % groupSize := by omega
    have enough := Nat.mod_le digits.length groupSize
    match digits, long, enough with
    | first :: second :: rest, long, enough =>
      have failed : startsGroup groupSize ((first :: second :: rest).length % groupSize) 1 =
          none := by
        unfold startsGroup
        simp only [Nat.one_ne_zero, if_false]
        rw [if_neg (by omega), if_pos long]
      simp only [groupDigits, zipIdx_cons, foldlM_cons]
      change (Option.map _ (startsGroup _ _ 1) >>= _) ≠ _
      rw [failed]
      simp
    | [first], long, enough =>
      simp only [length_singleton] at long enough
      omega
    | [], long, enough =>
      simp only [length_nil] at long enough
      omega

/-- A whole number and options that the builtin admits; with a signed width the number is a
bit pattern of that width. -/
structure Printable (value : ExactNumber) (format : NumberTextFormat) : Prop where
  radix : 2 ≤ format.radix ∧ format.radix ≤ 36
  minWidth : format.minWidth ≤ maxNumberTextDigits
  groupSize : ∀ size ∈ format.groupSize, 1 ≤ size ∧ size ≤ maxNumberTextDigits
  hasPrefix : format.hasPrefix = true → (basePrefix format.radix).isSome
  whole : value.denominator = 1
  signedWidth : ∀ width ∈ format.signedWidth, (1 ≤ width ∧ width ≤ 63) ∧
    0 ≤ value.numerator ∧ value.numerator < 2 ^ width

/-- The integer that is printed: a bit pattern stands for its two's complement. -/
def printedInteger (value : ExactNumber) (format : NumberTextFormat) : Int :=
  match format.signedWidth with
  | some width =>
    if 2 ^ (width - 1) ≤ value.numerator then value.numerator - 2 ^ width else value.numerator
  | none => value.numerator

/-- The zero-padded digits of the printed integer. -/
def printedDigits (value : ExactNumber) (format : NumberTextFormat) : List Char :=
  padDigits format.minWidth (numeral format.radix (printedInteger value format).natAbs)

/-- The base prefix, if it is asked for. -/
def printedPrefix (format : NumberTextFormat) : List Char :=
  if format.hasPrefix then (basePrefix format.radix).getD [] else []

/-- The optional minus sign and base prefix. -/
def printedHead (value : ExactNumber) (format : NumberTextFormat) : List Char :=
  signText (printedInteger value format < 0) ++ printedPrefix format

theorem checkTextFormat_printable
    (printable : Printable value format) : checkTextFormat format = .ok (printedPrefix format) := by
  simp only [checkTextFormat, check_bind_eq_ok_iff, reject_eq_ok_iff, forSome_eq_ok_iff, not_not]
  refine ⟨printable.radix, Nat.not_lt.mpr printable.minWidth, ?_, ?_, ?_⟩
  · intro size given
    have bounds := printable.groupSize size given
    omega
  · intro width given
    exact (printable.signedWidth width given).1
  · unfold printedPrefix
    cases given : format.hasPrefix with
    | false => rfl
    | true =>
      obtain ⟨_, found⟩ := Option.isSome_iff_exists.mp (printable.hasPrefix given)
      simp [found]

theorem testBit_sign_iff {raw : Nat} (widthPos : 1 ≤ width) (fits : raw < 2 ^ width) :
    raw.testBit (width - 1) = true ↔ 2 ^ (width - 1) ≤ raw := by
  constructor
  · exact Nat.ge_two_pow_of_testBit
  · intro high
    have split : 2 ^ width = 2 * 2 ^ (width - 1) := by
      rw [← pow_succ', Nat.sub_add_cancel widthPos]
    rw [Nat.testBit_eq_decide_div_mod_eq, decide_eq_true_iff]
    have quotient : raw / 2 ^ (width - 1) = 1 := by
      apply Nat.div_eq_of_lt_le <;> omega
    rw [quotient]

theorem eq_ofInt_of_whole (whole : value.denominator = 1) :
    value = ExactNumber.ofInt value.numerator :=
  ExactNumber.ext rfl whole

theorem signedInteger_printable (printable : Printable value format)
    (given : format.signedWidth = some width) :
    signedInteger value width = .ok (ExactNumber.ofInt (printedInteger value format)) := by
  obtain ⟨⟨widthPos, widthLe⟩, nonnegative, fits⟩ := printable.signedWidth width given
  obtain ⟨raw, rawEq⟩ := Int.eq_ofNat_of_zero_le nonnegative
  have rawLt : raw < 2 ^ width := by
    rw [rawEq] at fits
    exact_mod_cast fits
  have widthPow : 2 ^ width ≤ 2 ^ 63 := Nat.pow_le_pow_right (by decide) widthLe
  have word : value.toU64Exact = .ok raw := by
    have small : value.numerator < 2 ^ 64 := by
      omega
    have whole : value.isWhole = true := decide_eq_true printable.whole
    rw [toU64Exact, if_neg (by simp [whole]), if_pos ⟨nonnegative, small⟩, rawEq]
    rfl
  have notNegative : value.isNegative = false := by
    simpa [isNegative] using nonnegative
  have printed : printedInteger value format =
      if 2 ^ (width - 1) ≤ raw then (raw : Int) - 2 ^ width else raw := by
    simp only [printedInteger, given, rawEq]
    exact_mod_cast rfl
  rw [printed, signedInteger, check_bind_eq_ok_iff, word]
  refine ⟨by simp [notNegative], ?_⟩
  change (reject _ _ >>= _) = _
  rw [check_bind_eq_ok_iff, reject_eq_ok_iff]
  refine ⟨Nat.not_le.mpr rawLt, ?_⟩
  have signBit := testBit_sign_iff widthPos rawLt
  by_cases high : 2 ^ (width - 1) ≤ raw
  · rw [if_pos high, if_pos (signBit.mpr high), check_bind_eq_ok_iff, reject_eq_ok_iff]
    have modulus : (((2 ^ width : Nat) : Int)) = 2 ^ width := by push_cast; rfl
    refine ⟨?_, ?_⟩
    · omega
    · rw [modulus]
      rfl
  · rw [if_neg high, if_neg (mt signBit.mp high), pure_eq_ok_iff, ← rawEq]
    exact eq_ofInt_of_whole printable.whole

theorem formatNumberText_integer (printable : Printable value format)
    (integer : format.isInteger = true) :
    formatNumberText value format =
      (layoutDigits format (printedDigits value format) >>= fun body =>
        .ok (printedHead value format ++ body)) := by
  have chosen : chooseInteger value format =
      .ok (ofInt (printedInteger value format)) := by
    unfold chooseInteger
    cases given : format.signedWidth with
    | some => exact signedInteger_printable printable given
    | none =>
      have printed : printedInteger value format = value.numerator := by
        simp [printedInteger, given]
      rw [printed, ← eq_ofInt_of_whole printable.whole]
  unfold formatNumberText
  rw [checkTextFormat_printable printable]
  change (if !format.isInteger then _ else _) = _
  rw [if_neg (by simp [integer]), chosen]
  rfl

theorem formatNumberText_plain (printable : Printable value format)
    (plain : format.isInteger = false) :
    formatNumberText value format =
      (checkFormattedDigits
        (printedHead value format ++ printedDigits value format) .default).mapError .rejected := by
  have options : format.radix = 10 ∧ format.minWidth = 0 ∧ format.signedWidth = none ∧
      format.hasPrefix = false := by
    simp only [isInteger, Bool.or_eq_false_iff, decide_eq_false_iff_not, not_not,
      Option.isSome_eq_false_iff, Option.isNone_iff_eq_none] at plain
    exact ⟨plain.1.1.1.1, plain.1.1.1.2, plain.1.1.2, plain.2⟩
  obtain ⟨radix, minWidth, unsigned, noPrefix⟩ := options
  have text : printedHead value format ++ printedDigits value format =
      integerText value.numerator := by
    simp [printedHead, printedPrefix, printedDigits, printedInteger, padDigits, integerText, radix,
      minWidth, unsigned, noPrefix]
  have canonical : value.toCanonicalText =
      checkFormattedDigits (integerText value.numerator) .default := by
    have whole : value.isWhole = true := decide_eq_true printable.whole
    rw [toCanonicalText, toCanonicalTextWithProfile, if_pos whole]
  unfold formatNumberText
  rw [checkTextFormat_printable printable, text, ← canonical]
  change (if !format.isInteger then _ else _) = _
  rw [if_pos (by simp [plain])]

section Printed

variable (printable : Printable value format) {letter : Char}

include printable in
theorem digitValue_lt_of_mem_printedDigits
    (member : letter ∈ printedDigits value format) : digitValue letter < format.radix := by
  rw [printedDigits, padDigits, mem_append] at member
  rcases member with padding | digit
  · rw [(mem_replicate.mp padding).2]
    exact Nat.lt_of_lt_of_le (by decide) printable.radix.1
  · exact digitValue_lt_of_mem_numeral printable.radix.1 printable.radix.2 digit

include printable in
theorem not_mem_printedDigits (outside : digitValue letter = 255) :
    letter ∉ printedDigits value format := by
  intro member
  have digit := digitValue_lt_of_mem_printedDigits printable member
  have radixLe := printable.radix.2
  omega

theorem printedDigits_ne_nil : printedDigits value format ≠ [] := by
  simp [printedDigits, padDigits, numeral_ne_nil]

theorem space_not_mem_printedHead : ' ' ∉ printedHead value format := by
  have noPrefix : ' ' ∉ printedPrefix format := by
    unfold printedPrefix basePrefix
    split
    · split <;> decide
    · decide
  have noSign : ∀ negative, ' ' ∉ signText negative := by decide
  rw [printedHead, mem_append, not_or]
  exact ⟨noSign _, noPrefix⟩

end Printed

/-- The same options without groups. -/
def NumberTextFormat.ungrouped (format : NumberTextFormat) : NumberTextFormat :=
  { format with groupSize := none }

theorem Printable.ungrouped
    (printable : Printable value format) : Printable value format.ungrouped := { printable with
  groupSize := by simp [NumberTextFormat.ungrouped] }

/-- The ungrouped text, which falls under the digit budget if no integer option is left. -/
theorem formatNumberText_ungrouped_iff (printable : Printable value format)
    (noGroups : format.groupSize = none) :
    formatNumberText value format = .ok text ↔
      text = printedHead value format ++ printedDigits value format ∧
        (format.isInteger = false → (printedDigits value format).length ≤ maxNumberTextDigits) := by
  cases integer : format.isInteger with
  | true =>
    rw [formatNumberText_integer printable integer, layoutDigits, noGroups]
    change Except.ok _ = _ ↔ _
    simp [eq_comm]
  | false =>
    have radix : format.radix = 10 := by
      simp only [isInteger, Bool.or_eq_false_iff, decide_eq_false_iff_not, not_not] at integer
      exact integer.1.1.1.1
    have noPrefix : format.hasPrefix = false := by
      simp only [isInteger, Bool.or_eq_false_iff] at integer
      exact integer.2
    have counted : (printedHead value format ++ printedDigits value format).countP isAsciiDigit =
        (printedDigits value format).length := by
      rw [countP_append, printedHead, printedPrefix, if_neg (by simp [noPrefix]),
        append_nil, countP_signText, Nat.zero_add, countP_eq_length]
      intro letter member
      rw [isAsciiDigit_iff, ← radix]
      exact digitValue_lt_of_mem_printedDigits printable member
    rw [formatNumberText_plain printable integer, mapError_eq_ok_iff,
      checkFormattedDigits_eq_ok_iff, counted]
    exact ⟨fun given => ⟨given.2.symm, fun _ => given.1⟩,
      fun given => ⟨given.2 rfl, given.1.symm⟩⟩

/-- The text of a grouped number: sign and base prefix, then right-aligned groups, and the
ungrouped text when the spaces are removed. -/
def GroupsText (value : ExactNumber) (format : NumberTextFormat) (groupSize : Nat) : Prop :=
  ∃ body, formatNumberText value format = .ok (printedHead value format ++ body) ∧
    RightGrouped groupSize (printedDigits value format) body ∧
    formatNumberText value format.ungrouped =
      .ok ((printedHead value format ++ body).filter (· ≠ ' '))

/-- The builtin groups the digits exactly when at most one digit stands before the full
groups, and, if nothing but the groups asks for an integer text, the digits fit the budget of
the plain text. -/
theorem formatNumberText_groups_iff {value : ExactNumber} {format : NumberTextFormat}
    {groupSize : Nat} (printable : Printable value format)
    (grouped : format.groupSize = some groupSize) :
    GroupsText value format groupSize ↔
      (printedDigits value format).length % groupSize ≤ 1 ∧
        (format.ungrouped.isInteger = false →
          (printedDigits value format).length ≤ maxNumberTextDigits) := by
  have integer : format.isInteger = true := by
    simp [NumberTextFormat.isInteger, grouped]
  have printed {text : List Char} :
      formatNumberText value format = .ok text ↔
        (printedDigits value format).length % groupSize ≤ 1 ∧
          text = printedHead value format ++
            joinGroups groupSize true (printedDigits value format) := by
    rw [formatNumberText_integer printable integer, layoutDigits, grouped]
    simp only [bind_eq_ok_iff, okOr_eq_ok_iff, groupDigits_eq_some_iff, Except.ok.injEq]
    constructor
    · rintro ⟨_, ⟨short, same⟩, joined⟩
      exact ⟨short, by rw [← joined, same]⟩
    · rintro ⟨short, same⟩
      exact ⟨_, ⟨short, rfl⟩, same.symm⟩
  have unspaced : (printedHead value format ++
      joinGroups groupSize true (printedDigits value format)).filter (· ≠ ' ') =
        printedHead value format ++ printedDigits value format := by
    rw [filter_append, filter_joinGroups (not_mem_printedDigits printable (by decide)),
      filter_eq_self.mpr]
    intro letter member
    rw [decide_eq_true_iff]
    rintro rfl
    exact space_not_mem_printedHead member
  have plain {text} := @formatNumberText_ungrouped_iff text value _ printable.ungrouped rfl
  constructor
  · rintro ⟨_, formatted, _, flat⟩
    exact ⟨(printed.mp formatted).1, (plain.mp flat).2⟩
  · rintro ⟨short, budget⟩
    refine ⟨_, printed.mpr ⟨short, rfl⟩, ?_, plain.mpr ⟨unspaced, budget⟩⟩
    exact rightGrouped_joinGroups (printable.groupSize groupSize grouped).1 printedDigits_ne_nil

namespace ExactNumber

/-- The default format with groups of three. -/
def groupsOfThree : NumberTextFormat := { groupSize := some 3 }

theorem printable_groupsOfThree (value : Int) : Printable (ofInt value) groupsOfThree where
  radix := by decide
  minWidth := by decide
  groupSize := by decide
  hasPrefix := by decide
  whole := rfl
  signedWidth := by simp [groupsOfThree]

/-- Four digits are printed in two groups. -/
theorem formatNumberText_groups_fourDigits :
    Printable (ofInt 4321) groupsOfThree ∧ groupsOfThree.groupSize = some 3 ∧
      GroupsText (ofInt 4321) groupsOfThree 3 :=
  ⟨printable_groupsOfThree 4321, rfl,
    (formatNumberText_groups_iff (printable_groupsOfThree 4321) rfl).mpr (by decide)⟩

/-- Two digits in groups of three: the separator test at the second digit subtracts two from
one. -/
theorem formatNumberText_twoDigits_underflow :
    Printable (ofInt 42) groupsOfThree ∧ groupsOfThree.groupSize = some 3 ∧
      formatNumberText (ofInt 42) groupsOfThree = .error .underflow ∧
      ¬ GroupsText (ofInt 42) groupsOfThree 3 := by
  have stopped : formatNumberText (ofInt 42) groupsOfThree = .error .underflow := by
    rw [formatNumberText_integer (printable_groupsOfThree 42) rfl]
    rfl
  refine ⟨printable_groupsOfThree 42, rfl, stopped, ?_⟩
  rintro ⟨_, formatted, _⟩
  rw [stopped] at formatted
  cases formatted

end ExactNumber

end BoonCircuit.Data
