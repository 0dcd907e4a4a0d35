import Mathlib.Logic.Function.Basic

/-!
# Comparison functions pulled back along a map

A comparison that only looks at an image inherits transitivity from the order
of the image, and it separates points as soon as the map is injective.
-/

namespace BoonCircuit.Lib.Order

open Std

universe u v

variable {α : Type u} {β : Type v} [Ord α] [Ord β]

theorem transOrd_of_compare_eq [TransOrd β] (image : α → β)
    (pulledBack : ∀ left right : α, compare left right = compare (image left) (image right)) :
    TransOrd α where
  eq_swap {left right} := by
    simp only [pulledBack]
    exact OrientedCmp.eq_swap
  isLE_trans {first second third} := by
    simp only [pulledBack]
    exact TransCmp.isLE_trans

theorem lawfulEqOrd_of_compare_eq [LawfulEqOrd β] (image : α → β)
    (injective : Function.Injective image)
    (pulledBack : ∀ left right : α, compare left right = compare (image left) (image right)) :
    LawfulEqOrd α where
  compare_self {point} := by
    simp only [pulledBack]
    exact ReflCmp.compare_self
  eq_of_compare {left right} same := by
    rw [pulledBack] at same
    exact injective (LawfulEqCmp.eq_of_compare same)

section Lexicographic

variable {γ δ ι : Type} [Ord γ] [Ord δ] [Ord ι] [LawfulEqOrd γ] [LawfulEqOrd δ]
  [LawfulEqOrd ι] {second : α → δ} {first : α → γ}

omit [Ord α] in
/-- Points that tie in a three-stage comparison agree on all three projections. -/
theorem eq_of_compareLex_eq {third : α → ι} {left right : α}
    (tie : compareLex (compareOn first) (compareLex (compareOn second) (compareOn third))
      left right = .eq) :
    first left = first right ∧ second left = second right ∧ third left = third right := by
  simpa only [compareLex, compareOn, Ordering.then_eq_eq, Std.compare_eq_iff_eq] using tie

omit [Ord α] [Ord ι] [LawfulEqOrd ι] in
theorem eq_of_compareLex_eq₂ {left right : α}
    (tie : compareLex (compareOn first) (compareOn second) left right = .eq) :
    first left = first right ∧ second left = second right := by
  simpa only [compareLex, compareOn, Ordering.then_eq_eq, Std.compare_eq_iff_eq] using tie

end Lexicographic

end BoonCircuit.Lib.Order
