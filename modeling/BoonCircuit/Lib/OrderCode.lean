import Mathlib.Algebra.Group.Nat.Defs
import Mathlib.Data.Nat.Size

/-!
# Codes ordered at the first difference

`Precedes left right` says that the two words have a first difference and that
`left` has the smaller letter there.  It implies the lexicographic order and that
neither word is a prefix of the other, and unlike both of these it survives
arbitrary continuations of the two words.  A code whose words stand in this
relation can therefore be concatenated with others, and mirrored letter by letter,
without losing the order of what it encodes.
-/

namespace BoonCircuit.Lib

open Std

universe u v

/-- The words differ first at a place where the left one has the smaller letter. -/
inductive Precedes {α : Type u} [Ord α] : List α → List α → Prop
  | head {leftLetter rightLetter : α} (left right : List α)
      (less : compare leftLetter rightLetter = .lt) :
      Precedes (leftLetter :: left) (rightLetter :: right)
  | tail (letter : α) {left right : List α} (rest : Precedes left right) :
      Precedes (letter :: left) (letter :: right)

namespace Precedes

section Words

variable {α : Type u} {β : Type v} [Ord α] [Ord β] {left right : List α}

omit [Ord β] in
theorem append_left (common : List α) (precedes : Precedes left right) :
    Precedes (common ++ left) (common ++ right) := by
  induction common with
  | nil => exact precedes
  | cons letter common ih => exact .tail letter ih

omit [Ord β] in
theorem append_right (leftRest rightRest : List α) (precedes : Precedes left right) :
    Precedes (left ++ leftRest) (right ++ rightRest) := by
  induction precedes with
  | head left right less => exact .head _ _ less
  | tail letter rest ih => exact .tail letter ih

/-- Renaming the letters in order keeps the order of the words. -/
theorem map {rename : α → β} (keeps : ∀ leftLetter rightLetter : α,
      compare leftLetter rightLetter = .lt → compare (rename leftLetter) (rename rightLetter) = .lt)
    (precedes : Precedes left right) : Precedes (left.map rename) (right.map rename) := by
  induction precedes with
  | head left right less => exact .head _ _ (keeps _ _ less)
  | tail letter rest ih => exact .tail _ ih

/-- A mirror of the letters swaps the two words. -/
theorem map_mirror {mirror : α → β} (reverses : ∀ leftLetter ∈ left, ∀ rightLetter ∈ right,
      compare leftLetter rightLetter = .lt → compare (mirror rightLetter) (mirror leftLetter) = .lt)
    (precedes : Precedes left right) : Precedes (right.map mirror) (left.map mirror) := by
  induction precedes with
  | @head leftLetter rightLetter left right less =>
    exact .head _ _ (reverses leftLetter (by simp) rightLetter (by simp) less)
  | tail letter rest ih =>
    apply Precedes.tail
    apply ih
    intro leftLetter leftMem rightLetter rightMem
    exact reverses leftLetter (List.mem_cons_of_mem _ leftMem) rightLetter
      (List.mem_cons_of_mem _ rightMem)

omit [Ord β] in
theorem compare_eq_lt [ReflOrd α] (precedes : Precedes left right) : compare left right = .lt := by
  induction precedes with
  | head left right less =>
    apply List.compareLex_cons_cons.trans
    rw [less]
    rfl
  | tail letter rest ih =>
    apply List.compareLex_cons_cons.trans
    rw [ReflOrd.compare_self]
    exact ih

omit [Ord β] in
theorem not_isPrefix [ReflOrd α] (precedes : Precedes left right) :
    ¬ left <+: right ∧ ¬ right <+: left := by
  induction precedes with
  | @head leftLetter rightLetter left right less =>
    have differ : leftLetter ≠ rightLetter := by
      rintro rfl
      rw [ReflOrd.compare_self] at less
      cases less
    simp [List.cons_prefix_cons, differ, differ.symm]
  | tail letter rest ih => simpa [List.cons_prefix_cons] using ih

end Words

end Precedes

/-- Larger values have words that come later at their first difference. -/
def OrderCode {κ : Type v} {α : Type u} [Ord κ] [Ord α] (code : κ → List α) : Prop :=
  ∀ left right : κ, compare left right = .lt → Precedes (code left) (code right)

namespace OrderCode

variable {κ : Type v} {α : Type u} [Ord κ] [OrientedOrd κ] [LawfulEqOrd κ]
  [Ord α] [OrientedOrd α] {code : κ → List α}

/-- The lexicographic order of the words is the order of the values. -/
theorem compare_eq (ordered : OrderCode code) (left right : κ) :
    compare (code left) (code right) = compare left right := by
  cases order : compare left right with
  | lt => exact (ordered left right order).compare_eq_lt
  | eq =>
    rw [LawfulEqOrd.eq_of_compare order]
    exact ReflOrd.compare_self
  | gt =>
    have swapped : compare right left = .lt := OrientedOrd.eq_swap.trans (by rw [order]; rfl)
    exact OrientedCmp.gt_iff_lt.mpr (ordered right left swapped).compare_eq_lt

omit [OrientedOrd α] in
/-- Different values have words that differ before either one ends. -/
theorem precedes_or_precedes (ordered : OrderCode code) {left right : κ} (differ : left ≠ right) :
    Precedes (code left) (code right) ∨ Precedes (code right) (code left) := by
  cases order : compare left right with
  | lt => exact .inl (ordered left right order)
  | eq => exact absurd (LawfulEqOrd.eq_of_compare order) differ
  | gt =>
    have swapped : compare right left = .lt := OrientedOrd.eq_swap.trans (by rw [order]; rfl)
    exact .inr (ordered right left swapped)

/-- No word is a prefix of the word of another value. -/
theorem not_isPrefix (ordered : OrderCode code) {left right : κ} (differ : left ≠ right) :
    ¬ code left <+: code right := by
  rcases ordered.precedes_or_precedes differ with precedes | precedes
  · exact precedes.not_isPrefix.1
  · exact precedes.not_isPrefix.2

end OrderCode

/-- The lowest `count` bits of a number, the highest of them first. -/
def lowBits (count value : Nat) : List Bool :=
  (List.range count).reverse.map value.testBit

theorem lowBits_succ (count value : Nat) :
    lowBits (count + 1) value = value.testBit count :: lowBits count value := by
  simp [lowBits, List.range_succ]

theorem mod_two_pow_succ (value count : Nat) :
    value % 2 ^ (count + 1) = value % 2 ^ count + 2 ^ count * (value.testBit count).toNat := by
  rw [Nat.mod_pow_succ, Nat.toNat_testBit]

/-- Fixed-width words are ordered as the numbers they spell. -/
theorem precedes_lowBits {count left right : Nat} (less : left % 2 ^ count < right % 2 ^ count) :
    Precedes (lowBits count left) (lowBits count right) := by
  induction count with
  | zero => simp [Nat.mod_one] at less
  | succ count ih =>
    rw [lowBits_succ, lowBits_succ]
    rw [mod_two_pow_succ, mod_two_pow_succ] at less
    cases leftBit : left.testBit count with
    | false =>
      cases rightBit : right.testBit count with
      | false =>
        apply Precedes.tail
        apply ih
        simpa [leftBit, rightBit] using less
      | true => exact .head _ _ rfl
    | true =>
      cases rightBit : right.testBit count with
      | false =>
        simp only [leftBit, rightBit, Bool.toNat_true, Bool.toNat_false] at less
        omega
      | true =>
        apply Precedes.tail
        apply ih
        simpa [leftBit, rightBit] using less

/-- A number as its bit length in unary, a stop, and its bits below the leading one. -/
def gammaWord (value : Nat) : List Bool :=
  List.replicate value.size true ++ false :: lowBits (value.size - 1) value

/-- Gamma words are ordered as their numbers. -/
theorem precedes_gammaWord {left right : Nat} (less : left < right) :
    Precedes (gammaWord left) (gammaWord right) := by
  have sizes : left.size ≤ right.size := Nat.size_le_size (Nat.le_of_lt less)
  rcases Nat.lt_or_eq_of_le sizes with shorter | same
  · obtain ⟨extra, rightSize⟩ := Nat.exists_eq_add_of_lt shorter
    -- the stop of the shorter word meets the unary part of the longer one
    have longer : gammaWord right = List.replicate left.size true ++
        true :: (List.replicate extra true ++ false :: lowBits (right.size - 1) right) := by
      rw [gammaWord, rightSize, Nat.add_assoc, ← List.replicate_append_replicate,
        List.replicate_succ]
      simp
    rw [longer]
    exact (Precedes.head _ _ rfl).append_left _
  · rw [gammaWord, same]
    apply Precedes.append_left
    apply Precedes.tail
    apply precedes_lowBits
    have rightPos : 0 < right.size := Nat.size_pos.mpr (Nat.zero_lt_of_lt less)
    have leading (value : Nat) (size : value.size = right.size) :
        value % 2 ^ (right.size - 1) + 2 ^ (right.size - 1) = value := by
      have low : 2 ^ (right.size - 1) ≤ value := Nat.lt_size.mp (by omega)
      have high : value < 2 ^ (right.size - 1 + 1) := Nat.size_le.mp (by omega)
      rw [Nat.mod_eq_sub_mod low, Nat.mod_eq_of_lt (by omega)]
      omega
    have leftLeading := leading left same
    have rightLeading := leading right rfl
    omega

end BoonCircuit.Lib
