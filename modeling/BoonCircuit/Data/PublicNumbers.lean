import BoonCircuit.Data.NumberConversion

/-!
# Numbers produced by the public operations

Every way to obtain an `ExactNumber` from the public interface leads to a canonical
number inside the component budget of the default profile.  Several constructors build
the number directly, without normalizing it or checking the profile; they are covered
because their results are whole and not longer than an operand.
-/

namespace BoonCircuit.Data.ExactNumber

open Lib

/-- The numbers that constructors, parsers and arithmetic can return. -/
inductive Produced : ExactNumber → Prop
  | zero : Produced zero
  | one : Produced one
  | fromI64 (value : Int64) : Produced (fromI64 value)
  | fromU64 (value : UInt64) : Produced (fromU64 value)
  | fromUsize (value : UInt64) : Produced (fromUsize value)
  | parseStrict {text : List Char} {radix : Option Nat} {result : ExactNumber}
      (returned : parseStrict text radix = .ok result) : Produced result
  | fromRatio {numerator : Int} {denominator : Nat} {result : ExactNumber}
      (returned : fromRatio numerator denominator = .ok result) : Produced result
  | fromCanonicalBytes {sign : ExactNumberSign} {magnitude denominator : List UInt8}
      {result : ExactNumber}
      (returned : fromCanonicalBytes sign magnitude denominator = .ok result) : Produced result
  | fromF64BoundaryExact {bits : UInt64} {result : ExactNumber}
      (returned : fromF64BoundaryExact bits = .ok result) : Produced result
  | checkedAdd {left right result : ExactNumber} (leftProduced : Produced left)
      (rightProduced : Produced right) (returned : checkedAdd left right = .ok result) :
      Produced result
  | checkedSub {left right result : ExactNumber} (leftProduced : Produced left)
      (rightProduced : Produced right) (returned : checkedSub left right = .ok result) :
      Produced result
  | checkedMul {left right result : ExactNumber} (leftProduced : Produced left)
      (rightProduced : Produced right) (returned : checkedMul left right = .ok result) :
      Produced result
  | checkedDiv {left right result : ExactNumber} (leftProduced : Produced left)
      (rightProduced : Produced right) (returned : checkedDiv left right = .ok result) :
      Produced result
  | checkedRem {left right result : ExactNumber} (leftProduced : Produced left)
      (rightProduced : Produced right) (returned : checkedRem left right = .ok result) :
      Produced result
  | roundTo {number quantum result : ExactNumber} {rule : ExactRoundingRule}
      (numberProduced : Produced number) (quantumProduced : Produced quantum)
      (returned : roundTo number quantum rule = .ok result) : Produced result
  | floor {number : ExactNumber} (produced : Produced number) : Produced number.floor
  | ceil {number : ExactNumber} (produced : Produced number) : Produced number.ceil
  | truncate {number : ExactNumber} (produced : Produced number) : Produced number.truncate
  | abs {number : ExactNumber} (produced : Produced number) : Produced number.abs

/-- Positive denominator, coprime components, and zero only as `0 / 1`. -/
structure Canonical (number : ExactNumber) : Prop where
  denominator_pos : 0 < number.denominator
  reduced : number.numerator.natAbs.gcd number.denominator = 1
  zero_form : number.numerator = 0 → number.denominator = 1

theorem canonical (number : ExactNumber) : number.Canonical :=
  ⟨number.denominator_pos, number.reduced, denominator_eq_one_of_numerator_eq_zero⟩

variable {result : ExactNumber} {text : List Char}

theorem withinProfile_parseRadixNumber {radix : Nat}
    (returned : parseRadixNumber text radix .default = .ok result) :
    result.WithinProfile .default := by
  unfold parseRadixNumber at returned
  simp only [Checks.bind_eq_ok_iff, Checks.mapError_eq_ok_iff] at returned
  obtain ⟨_, _, _, _, _, _, _, _, _, _, _, _, _, _, _, _, _, _, ratio⟩ := returned
  exact withinProfile_fromRatio ratio

theorem withinProfile_parseStrict {radix : Option Nat}
    (returned : parseStrict text radix = .ok result) : result.WithinProfile .default := by
  cases radix with
  | some => exact withinProfile_parseRadixNumber returned
  | none =>
    obtain ⟨_, _, _, budgets, exact⟩ := parseStrict_none_eq_ok_iff.mp returned
    rw [eq_ofRat_iff.mpr exact]
    exact budgets.components

theorem Produced.withinProfile {number : ExactNumber} (produced : Produced number) :
    number.WithinProfile .default := by
  induction produced with
  | zero => exact withinProfile_zero
  | one => exact withinProfile_ofInt_of_natAbs_lt (by decide)
  | fromI64 value => exact withinProfile_fromI64 value
  | fromU64 value | fromUsize value => exact withinProfile_fromU64 value
  | parseStrict returned => exact withinProfile_parseStrict returned
  | fromRatio returned => exact withinProfile_fromRatio returned
  | fromCanonicalBytes returned => exact (fromCanonicalBytes_eq_ok_iff.mp returned).1
  | fromF64BoundaryExact returned => exact withinProfile_fromF64BoundaryExact returned
  | @checkedAdd left right result _ _ returned =>
    exact (((checkedAdd_checkedSub_compute left right).1.ok_iff result).mp returned).2.2
  | @checkedSub left right result _ _ returned =>
    exact (((checkedAdd_checkedSub_compute left right).2.ok_iff result).mp returned).2.2
  | @checkedMul left right result _ _ returned =>
    exact (((checkedMul_computes left right).ok_iff result).mp returned).2.2
  | @checkedDiv left right result _ _ returned =>
    exact (((checkedDiv_computes left right).ok_iff result).mp returned).2.2
  | checkedRem _ _ returned _ within => exact withinProfile_checkedRem within returned
  | roundTo _ _ returned => exact withinProfile_roundTo returned
  | floor _ within => exact withinProfile_floor within
  | ceil _ within => exact withinProfile_ceil within
  | truncate _ within => exact withinProfile_truncate within
  | abs _ within => exact withinProfile_abs within

/-- Produced numbers are canonical and inside the component budget, and the field
operations are exact up to zero divisors, work and component budgets. -/
theorem publicOperations_exact :
    (∀ number, Produced number → number.Canonical ∧ number.WithinProfile .default) ∧
    ∀ left right : ExactNumber,
      Computes (checkedAdd left right) (WorkExceeded left right) (left.toRat + right.toRat) ∧
      Computes (checkedSub left right) (WorkExceeded left right) (left.toRat - right.toRat) ∧
      Computes (checkedMul left right) (WorkExceeded left right) (left.toRat * right.toRat) ∧
      Computes (checkedDiv left right) (right = zero ∨ WorkExceeded left right)
        (left.toRat / right.toRat) ∧
      checkedMul left right =
        (checkBinaryWork left right .default "multiplication" >>=
          fun _ => fromRatio (left.numerator * right.numerator)
            (left.denominator * right.denominator)) := by
  constructor
  · intro number produced
    exact ⟨number.canonical, produced.withinProfile⟩
  · intro left right
    obtain ⟨adds, subtracts⟩ := checkedAdd_checkedSub_compute left right
    exact ⟨adds, subtracts, checkedMul_computes left right, checkedDiv_computes left right,
      checkedMulWithProfile_eq_direct left right _⟩

end BoonCircuit.Data.ExactNumber
