import BoonCircuit.Data.Number
import BoonCircuit.Lib.OrderCode

/-!
# Ordered bytes of exact numbers

`canonicalOrderBytes` writes a number as its sign followed by its run-length
encoded Stern-Brocot path.  Each run is a gamma word over the tokens `0` and `2`,
ascending along right runs and descending along left runs, and the token `1` ends
the path.  The bytes of different numbers differ before either string ends, in the
direction of the rational order.
-/

namespace BoonCircuit.Data

open Lib List Nat Int

/-- The token of one bit, mirrored in descending words. -/
def encodeToken (descending bit : Bool) : UInt8 :=
  let token : UInt8 := if bit then 2 else 0
  if descending then 2 - token else token

/-- The gamma word of a run length. -/
def encodePositiveIntegerOrder (value : Nat) (descending : Bool) : List UInt8 :=
  let bits := value.size
  List.replicate bits (encodeToken descending true) ++ encodeToken descending false ::
    (List.range (bits - 1)).reverse.map fun position =>
      encodeToken descending (value.testBit position)

/-- The state of the path loop: the rest of both components, the larger of which
is named by `right`. -/
@[ext]
structure OrderPathState where
  numerator : Nat
  denominator : Nat
  right : Bool
  numerator_pos : 0 < numerator
  denominator_pos : 0 < denominator
  ordered : if right then denominator < numerator else numerator < denominator

namespace OrderPathState

/-- The number of steps that can be made in the current direction. -/
def run (state : OrderPathState) : Nat :=
  if state.right then (state.numerator - 1) / state.denominator
  else (state.denominator - 1) / state.numerator

variable (state : OrderPathState)

/-- The numerator after the run. -/
def numeratorAfter : Nat :=
  if state.right then state.numerator - state.run * state.denominator else state.numerator

/-- The denominator after the run. -/
def denominatorAfter : Nat :=
  if state.right then state.denominator else state.denominator - state.run * state.numerator

private theorem remainder_bounds {large small : Nat} (smallPos : 0 < small) (largePos : 0 < large) :
    0 < large - (large - 1) / small * small ∧ large - (large - 1) / small * small ≤ small := by
  have euclid := div_add_mod (large - 1) small
  have rest := mod_lt (large - 1) smallPos
  rw [mul_comm] at euclid
  omega

theorem numeratorAfter_pos : 0 < state.numeratorAfter := by
  unfold numeratorAfter run
  split
  · exact (remainder_bounds state.denominator_pos state.numerator_pos).1
  · exact state.numerator_pos

theorem denominatorAfter_pos : 0 < state.denominatorAfter := by
  unfold denominatorAfter run
  split
  · exact state.denominator_pos
  · exact (remainder_bounds state.numerator_pos state.denominator_pos).1

theorem after_le : if state.right then state.numeratorAfter ≤ state.denominatorAfter
    else state.denominatorAfter ≤ state.numeratorAfter := by
  unfold numeratorAfter denominatorAfter run
  split
  · exact (remainder_bounds state.denominator_pos state.numerator_pos).2
  · exact (remainder_bounds state.numerator_pos state.denominator_pos).2

/-- The state that continues in the other direction. -/
def turned (unfinished : state.numeratorAfter ≠ state.denominatorAfter) : OrderPathState where
  numerator := state.numeratorAfter
  denominator := state.denominatorAfter
  right := !state.right
  numerator_pos := state.numeratorAfter_pos
  denominator_pos := state.denominatorAfter_pos
  ordered := by
    have after := state.after_le
    cases direction : state.right with
    | true =>
      rw [direction] at after
      exact lt_of_le_of_ne after unfinished
    | false =>
      rw [direction] at after
      exact lt_of_le_of_ne after unfinished.symm

theorem run_pos : 0 < state.run := by
  have ordered := state.ordered
  unfold run
  split
  · rename_i direction
    rw [if_pos direction] at ordered
    exact div_pos (by omega) state.denominator_pos
  · rename_i direction
    rw [if_neg direction] at ordered
    exact div_pos (by omega) state.numerator_pos

/-- The components shrink from run to run, so the loop ends. -/
theorem measure_turned_lt (unfinished : state.numeratorAfter ≠ state.denominatorAfter) :
    (state.turned unfinished).numerator + (state.turned unfinished).denominator <
      state.numerator + state.denominator := by
  change state.numeratorAfter + state.denominatorAfter < _
  have steps := state.run_pos
  have numeratorPos := state.numerator_pos
  have denominatorPos := state.denominator_pos
  unfold numeratorAfter denominatorAfter at *
  split
  · have passed : 0 < state.run * state.denominator := mul_pos steps denominatorPos
    omega
  · have passed : 0 < state.run * state.numerator := mul_pos steps numeratorPos
    omega

end OrderPathState

/-- The loop of the path encoder: one gamma word per run, then the end token or the
token of the next direction. -/
def encodeOrderRuns (state : OrderPathState) : List UInt8 :=
  let tokens := encodePositiveIntegerOrder state.run (!state.right)
  if finished : state.numeratorAfter = state.denominatorAfter then tokens ++ [1]
  else tokens ++ (if state.right then 0 else 2) :: encodeOrderRuns (state.turned finished)
termination_by state.numerator + state.denominator
decreasing_by exact state.measure_turned_lt finished

/-- The run-length encoded path of a positive ratio. -/
def encodePositiveOrderPath (numerator denominator : Nat) (numeratorPos : 0 < numerator)
    (denominatorPos : 0 < denominator) : List UInt8 :=
  if equal : numerator = denominator then [1]
  else if larger : denominator < numerator then
    2 :: encodeOrderRuns ⟨numerator, denominator, true, numeratorPos, denominatorPos, larger⟩
  else
    0 :: encodeOrderRuns ⟨numerator, denominator, false, numeratorPos, denominatorPos,
      lt_of_le_of_ne (Nat.not_lt.mp larger) equal⟩

theorem ExactNumber.natAbs_numerator_pos {number : ExactNumber} (nonzero : number.sign ≠ .zero) :
    0 < number.numerator.natAbs :=
  natAbs_pos.mpr fun numeratorZero => nonzero (sign_eq_zero_iff.mpr numeratorZero)

/-- A prefix-free byte sequence whose lexicographic order is the rational order. -/
def ExactNumber.canonicalOrderBytes (number : ExactNumber) : List UInt8 :=
  match signEq : number.sign with
  | .negative =>
    let magnitude := encodePositiveOrderPath number.numerator.natAbs number.denominator
      (natAbs_numerator_pos (by simp [signEq])) number.denominator_pos
    0 :: magnitude.map (2 - ·)
  | .zero => [1]
  | .positive =>
    2 :: encodePositiveOrderPath number.numerator.natAbs number.denominator
      (natAbs_numerator_pos (by simp [signEq])) number.denominator_pos

variable {state : OrderPathState} {token : UInt8}

theorem encodeOrderRuns_finished (finished : state.numeratorAfter = state.denominatorAfter) :
    encodeOrderRuns state = encodePositiveIntegerOrder state.run (!state.right) ++ [1] := by
  rw [encodeOrderRuns]
  exact dif_pos finished

theorem encodeOrderRuns_unfinished (unfinished : state.numeratorAfter ≠ state.denominatorAfter) :
    encodeOrderRuns state = encodePositiveIntegerOrder state.run (!state.right) ++
      (if state.right then 0 else 2) :: encodeOrderRuns (state.turned unfinished) := by
  rw [encodeOrderRuns]
  exact dif_neg unfinished

theorem exists_encodeOrderRuns_eq_append (state : OrderPathState) :
    ∃ rest, encodeOrderRuns state =
      encodePositiveIntegerOrder state.run (!state.right) ++ rest := by
  by_cases finished : state.numeratorAfter = state.denominatorAfter
  · exact ⟨_, encodeOrderRuns_finished finished⟩
  · exact ⟨_, encodeOrderRuns_unfinished finished⟩

theorem encodeToken_le (descending bit : Bool) : encodeToken descending bit ≤ 2 := by
  cases descending <;> cases bit <;> decide

theorem mirror_encodeToken (descending bit : Bool) :
    2 - encodeToken descending bit = encodeToken (!descending) bit := by
  cases descending <;> cases bit <;> decide

/-- Tokens are mirrored in the order of the bytes. -/
theorem compare_mirror {left right : UInt8} (leftLe : left ≤ 2) (rightLe : right ≤ 2)
    (less : compare left right = .lt) : compare (2 - right) (2 - left) = .lt := by
  rw [Std.compare_eq_lt, UInt8.lt_iff_toNat_lt] at less ⊢
  rw [UInt8.le_iff_toNat_le] at leftLe rightLe
  rw [UInt8.toNat_sub_of_le _ _ rightLe, UInt8.toNat_sub_of_le _ _ leftLe]
  omega

theorem encodePositiveIntegerOrder_eq_map (value : Nat) (descending : Bool) :
    encodePositiveIntegerOrder value descending =
      (gammaWord value).map (encodeToken descending) := by
  simp [encodePositiveIntegerOrder, gammaWord, lowBits]

theorem mirror_encodePositiveIntegerOrder (value : Nat) (descending : Bool) :
    (encodePositiveIntegerOrder value descending).map (2 - ·) =
      encodePositiveIntegerOrder value (!descending) := by
  simp [encodePositiveIntegerOrder_eq_map, mirror_encodeToken]

theorem encodePositiveIntegerOrder_le {value : Nat} {descending : Bool}
    (member : token ∈ encodePositiveIntegerOrder value descending) : token ≤ 2 := by
  rw [encodePositiveIntegerOrder_eq_map, mem_map] at member
  obtain ⟨bit, _, rfl⟩ := member
  exact encodeToken_le descending bit

theorem precedes_encodePositiveIntegerOrder {left right : Nat} (less : left < right) :
    Precedes (encodePositiveIntegerOrder left false) (encodePositiveIntegerOrder right false) := by
  rw [encodePositiveIntegerOrder_eq_map, encodePositiveIntegerOrder_eq_map]
  apply (precedes_gammaWord less).map
  decide

namespace OrderPathState

variable (state : OrderPathState)

/-- The state of the reciprocal ratio. -/
def mirror : OrderPathState where
  numerator := state.denominator
  denominator := state.numerator
  right := !state.right
  numerator_pos := state.denominator_pos
  denominator_pos := state.numerator_pos
  ordered := by
    have ordered := state.ordered
    cases direction : state.right <;> simpa [direction] using ordered

@[simp]
theorem mirror_mirror : state.mirror.mirror = state := by
  ext <;> simp [mirror]

@[simp]
theorem run_mirror : state.mirror.run = state.run := by
  cases direction : state.right <;> simp [run, mirror, direction]

@[simp]
theorem numeratorAfter_mirror : state.mirror.numeratorAfter = state.denominatorAfter := by
  unfold numeratorAfter denominatorAfter
  rw [run_mirror]
  cases direction : state.right <;> simp [mirror, direction]

@[simp]
theorem denominatorAfter_mirror : state.mirror.denominatorAfter = state.numeratorAfter := by
  unfold numeratorAfter denominatorAfter
  rw [run_mirror]
  cases direction : state.right <;> simp [mirror, direction]

theorem turned_mirror (unfinished : state.mirror.numeratorAfter ≠ state.mirror.denominatorAfter) :
    state.mirror.turned unfinished = (state.turned (by simpa using unfinished.symm)).mirror := by
  ext
  · exact numeratorAfter_mirror state
  · exact denominatorAfter_mirror state
  · rfl

end OrderPathState

theorem encodeOrderRuns_mirror (state : OrderPathState) :
    encodeOrderRuns state.mirror = (encodeOrderRuns state).map (2 - ·) := by
  induction state using encodeOrderRuns.induct with
  | case1 state finished =>
    have finishedMirror : state.mirror.numeratorAfter = state.mirror.denominatorAfter := by
      simpa using finished.symm
    rw [encodeOrderRuns_finished finished, encodeOrderRuns_finished finishedMirror,
      map_append, mirror_encodePositiveIntegerOrder, OrderPathState.run_mirror]
    rfl
  | case2 state unfinished ih =>
    have unfinishedMirror : state.mirror.numeratorAfter ≠ state.mirror.denominatorAfter := by
      simpa using Ne.symm unfinished
    rw [encodeOrderRuns_unfinished unfinished, encodeOrderRuns_unfinished unfinishedMirror,
      map_append, mirror_encodePositiveIntegerOrder, OrderPathState.run_mirror,
      OrderPathState.turned_mirror, ih]
    cases direction : state.right <;> simp [OrderPathState.mirror, direction]

theorem encodeOrderRuns_le (member : token ∈ encodeOrderRuns state) : token ≤ 2 := by
  induction state using encodeOrderRuns.induct with
  | case1 state finished =>
    rw [encodeOrderRuns_finished finished, mem_append, mem_singleton] at member
    rcases member with inRun | rfl
    · exact encodePositiveIntegerOrder_le inRun
    · decide
  | case2 state unfinished ih =>
    rw [encodeOrderRuns_unfinished unfinished, mem_append, mem_cons] at member
    rcases member with inRun | rfl | later
    · exact encodePositiveIntegerOrder_le inRun
    · cases state.right <;> decide
    · exact ih later

theorem precedes_of_mirror {left right : OrderPathState}
    (precedes : Precedes (encodeOrderRuns right.mirror) (encodeOrderRuns left.mirror)) :
    Precedes (encodeOrderRuns left) (encodeOrderRuns right) := by
  rw [← left.mirror_mirror, ← right.mirror_mirror, encodeOrderRuns_mirror left.mirror,
    encodeOrderRuns_mirror right.mirror]
  apply precedes.map_mirror
  intro leftToken leftMem rightToken rightMem
  exact compare_mirror (encodeOrderRuns_le leftMem) (encodeOrderRuns_le rightMem)

private theorem run_le_run {leftLarge leftSmall rightLarge rightSmall : Nat}
    (rightSmallPos : 0 < rightSmall) (leftLargePos : 0 < leftLarge)
    (less : leftLarge * rightSmall < rightLarge * leftSmall) :
    (leftLarge - 1) / leftSmall ≤ (rightLarge - 1) / rightSmall := by
  rw [le_div_iff_mul_le rightSmallPos]
  have below : (leftLarge - 1) / leftSmall * leftSmall < leftLarge :=
    lt_of_le_of_lt (div_mul_le_self _ _) (by omega)
  have scaled : (leftLarge - 1) / leftSmall * rightSmall * leftSmall < rightLarge * leftSmall :=
    calc (leftLarge - 1) / leftSmall * rightSmall * leftSmall
        = (leftLarge - 1) / leftSmall * leftSmall * rightSmall := by ring
      _ < leftLarge * rightSmall := mul_lt_mul_of_pos_right below rightSmallPos
      _ < rightLarge * leftSmall := less
  have passed := lt_of_mul_lt_mul_right scaled
  omega

private theorem after_equal_runs {left right : OrderPathState} (leftRight : left.right = true)
    (rightRight : right.right = true) (sameRun : left.run = right.run)
    (less : left.numerator * right.denominator < right.numerator * left.denominator) :
    left.numeratorAfter * right.denominatorAfter < right.numeratorAfter * left.denominatorAfter ∧
      left.numeratorAfter < left.denominatorAfter := by
  have rightAfter := right.numeratorAfter_pos
  have rightLe := right.after_le
  simp only [OrderPathState.numeratorAfter, OrderPathState.denominatorAfter, leftRight, rightRight,
    if_true, sameRun] at *
  have rests : (left.numerator - right.run * left.denominator) * right.denominator <
      (right.numerator - right.run * right.denominator) * left.denominator := by
    rw [Nat.sub_mul, Nat.sub_mul]
    have passed : right.run * left.denominator * right.denominator =
        right.run * right.denominator * left.denominator := by ring
    have rightPassed : right.run * right.denominator * left.denominator <
        right.numerator * left.denominator :=
      mul_lt_mul_of_pos_right (by omega) left.denominator_pos
    omega
  refine ⟨rests, ?_⟩
  have capped : (right.numerator - right.run * right.denominator) * left.denominator ≤
      right.denominator * left.denominator := mul_le_mul_right _ rightLe
  rw [mul_comm right.denominator] at capped
  exact Nat.lt_of_mul_lt_mul_right (rests.trans_le capped)

/-- Along right runs the order of the ratios is the order of the tokens. -/
theorem precedes_encodeOrderRuns (left right : OrderPathState) (leftRight : left.right = true)
    (rightRight : right.right = true)
    (less : left.numerator * right.denominator < right.numerator * left.denominator) :
    Precedes (encodeOrderRuns left) (encodeOrderRuns right) := by
  -- both paths turn after equal runs, so the induction is on all four components
  induction total : left.numerator + left.denominator + (right.numerator + right.denominator)
    using Nat.strong_induction_on generalizing left right with
  | _ sum ih =>
    have runs : left.run ≤ right.run := by
      simp only [OrderPathState.run, leftRight, rightRight]
      exact run_le_run right.denominator_pos left.numerator_pos less
    rcases runs.lt_or_eq with shorter | sameRun
    · obtain ⟨_, leftTokens⟩ := exists_encodeOrderRuns_eq_append left
      obtain ⟨_, rightTokens⟩ := exists_encodeOrderRuns_eq_append right
      rw [leftTokens, rightTokens, leftRight, rightRight]
      exact (precedes_encodePositiveIntegerOrder shorter).append_right _ _
    · obtain ⟨rests, unfinished⟩ := after_equal_runs leftRight rightRight sameRun less
      rw [encodeOrderRuns_unfinished unfinished.ne, leftRight, sameRun]
      by_cases finished : right.numeratorAfter = right.denominatorAfter
      · rw [encodeOrderRuns_finished finished, rightRight]
        exact (Precedes.head _ _ rfl).append_left _
      · rw [encodeOrderRuns_unfinished finished, rightRight]
        apply Precedes.append_left
        apply Precedes.tail
        apply precedes_of_mirror
        have leftSmaller := left.measure_turned_lt unfinished.ne
        have rightSmaller := right.measure_turned_lt finished
        apply ih _ _ _ _ _ _ _ rfl
        · change right.denominatorAfter + right.numeratorAfter +
            (left.denominatorAfter + left.numeratorAfter) < sum
          change left.numeratorAfter + left.denominatorAfter < _ at leftSmaller
          change right.numeratorAfter + right.denominatorAfter < _ at rightSmaller
          omega
        · simp [OrderPathState.mirror, OrderPathState.turned, rightRight]
        · simp [OrderPathState.mirror, OrderPathState.turned, leftRight]
        · change right.denominatorAfter * left.numeratorAfter <
            left.denominatorAfter * right.numeratorAfter
          rw [mul_comm right.denominatorAfter, mul_comm left.denominatorAfter]
          exact rests

theorem encodePositiveOrderPath_le {numerator denominator : Nat} {numeratorPos : 0 < numerator}
    {denominatorPos : 0 < denominator} (member : token ∈
      encodePositiveOrderPath numerator denominator numeratorPos denominatorPos) : token ≤ 2 := by
  unfold encodePositiveOrderPath at member
  split at member
  · rw [mem_singleton] at member
    subst member
    decide
  · split at member
    all_goals
      rcases mem_cons.mp member with rfl | inRuns
      · decide
      · exact encodeOrderRuns_le inRuns

/-- The paths of positive ratios are ordered by cross multiplication. -/
theorem precedes_encodePositiveOrderPath
    {leftNumerator leftDenominator rightNumerator rightDenominator : Nat}
    (leftNumeratorPos : 0 < leftNumerator) (leftDenominatorPos : 0 < leftDenominator)
    (rightNumeratorPos : 0 < rightNumerator) (rightDenominatorPos : 0 < rightDenominator)
    (less : leftNumerator * rightDenominator < rightNumerator * leftDenominator) :
    Precedes
      (encodePositiveOrderPath leftNumerator leftDenominator leftNumeratorPos leftDenominatorPos)
      (encodePositiveOrderPath rightNumerator rightDenominator rightNumeratorPos
        rightDenominatorPos) := by
  -- a ratio at most one cannot be above a ratio at least one
  have crossing : ¬ (rightNumerator ≤ rightDenominator ∧ leftDenominator ≤ leftNumerator) := by
    rintro ⟨rightSmall, leftLarge⟩
    have reverse := mul_le_mul rightSmall leftLarge
    rw [mul_comm rightDenominator] at reverse
    omega
  unfold encodePositiveOrderPath
  rcases lt_trichotomy leftNumerator leftDenominator with leftBelow | leftOne | leftAbove
  · rw [dif_neg leftBelow.ne, dif_neg leftBelow.asymm]
    rcases lt_trichotomy rightNumerator rightDenominator with rightBelow | rightOne | rightAbove
    · rw [dif_neg rightBelow.ne, dif_neg rightBelow.asymm]
      apply Precedes.tail
      apply precedes_of_mirror
      apply precedes_encodeOrderRuns _ _ rfl rfl
      change rightDenominator * leftNumerator < leftDenominator * rightNumerator
      rw [mul_comm rightDenominator, mul_comm leftDenominator]
      exact less
    · rw [dif_pos rightOne]
      exact .head _ _ rfl
    · rw [dif_neg rightAbove.ne', dif_pos rightAbove]
      exact .head _ _ rfl
  · have rightAbove : rightDenominator < rightNumerator := by
      by_contra notAbove
      exact crossing ⟨not_lt.mp notAbove, leftOne.ge⟩
    rw [dif_pos leftOne, dif_neg rightAbove.ne', dif_pos rightAbove]
    exact .head _ _ rfl
  · have rightAbove : rightDenominator < rightNumerator := by
      by_contra notAbove
      exact crossing ⟨not_lt.mp notAbove, leftAbove.le⟩
    rw [dif_neg leftAbove.ne', dif_pos leftAbove, dif_neg rightAbove.ne', dif_pos rightAbove]
    exact (precedes_encodeOrderRuns _ _ rfl rfl less).tail _

namespace ExactNumber

variable {number : ExactNumber}

theorem sign_eq_negative_iff : number.sign = .negative ↔ number.numerator < 0 := by
  unfold sign
  split
  · simpa
  · split <;> simp only [reduceCtorEq, false_iff] <;> omega

theorem sign_eq_positive_iff : number.sign = .positive ↔ 0 < number.numerator := by
  unfold sign
  split
  · simp only [reduceCtorEq, false_iff]
    omega
  · split
    · simp only [reduceCtorEq, false_iff]
      omega
    · simp only [true_iff]
      omega

/-- The path of the magnitude of a nonzero number. -/
def magnitudePath (number : ExactNumber) (nonzero : number.sign ≠ .zero) : List UInt8 :=
  encodePositiveOrderPath number.numerator.natAbs number.denominator
    (natAbs_numerator_pos nonzero) number.denominator_pos

theorem canonicalOrderBytes_negative (negative : number.sign = .negative) :
    number.canonicalOrderBytes = 0 :: (number.magnitudePath (by simp [negative])).map (2 - ·) := by
  unfold canonicalOrderBytes
  split
  · rfl
  all_goals
    rename_i other
    rw [negative] at other
    cases other

theorem canonicalOrderBytes_zero (isZero : number.sign = .zero) :
    number.canonicalOrderBytes = [1] := by
  unfold canonicalOrderBytes
  split <;> simp_all

theorem canonicalOrderBytes_positive (positive : number.sign = .positive) :
    number.canonicalOrderBytes = 2 :: number.magnitudePath (by simp [positive]) := by
  unfold canonicalOrderBytes
  split
  case h_3 => rfl
  all_goals
    rename_i other
    rw [positive] at other
    cases other

theorem canonicalOrderBytes_le (member : token ∈ number.canonicalOrderBytes) : token ≤ 2 := by
  cases signEq : number.sign with
  | negative =>
    rw [canonicalOrderBytes_negative signEq, mem_cons, mem_map] at member
    rcases member with rfl | ⟨_, inPath, rfl⟩
    · decide
    · have mirroredLe := encodePositiveOrderPath_le inPath
      rw [UInt8.le_iff_toNat_le] at mirroredLe ⊢
      rw [UInt8.toNat_sub_of_le _ _ (UInt8.le_iff_toNat_le.mpr mirroredLe)]
      exact sub_le _ _
  | zero =>
    rw [canonicalOrderBytes_zero signEq, mem_singleton] at member
    subst member
    decide
  | positive =>
    rw [canonicalOrderBytes_positive signEq] at member
    rcases mem_cons.mp member with rfl | inPath
    · decide
    · exact encodePositiveOrderPath_le inPath

theorem compare_eq_lt_iff {left right : ExactNumber} :
    compare left right = .lt ↔
      left.numerator * right.denominator < right.numerator * left.denominator := by
  change compare (left.numerator * right.denominator) (right.numerator * left.denominator) = .lt ↔ _
  exact compare_lt_iff_lt

theorem sign_of_compare_eq_lt {left right : ExactNumber} (less : compare left right = .lt) :
    (left.sign ≠ .negative → right.sign = .positive) ∧
      (left.sign = .positive → right.sign = .positive) := by
  rw [compare_eq_lt_iff] at less
  have leftPos : (0 : Int) < left.denominator := natCast_pos.mpr left.denominator_pos
  have rightPos : (0 : Int) < right.denominator := natCast_pos.mpr right.denominator_pos
  have positive : 0 ≤ left.numerator → 0 < right.numerator := by
    intro nonnegative
    have leftNonneg : 0 ≤ left.numerator * right.denominator :=
      mul_nonneg nonnegative rightPos.le
    exact (mul_pos_iff_of_pos_right leftPos).mp (leftNonneg.trans_lt less)
  constructor
  · intro notNegative
    rw [ne_eq, sign_eq_negative_iff, not_lt] at notNegative
    exact sign_eq_positive_iff.mpr (positive notNegative)
  · intro leftPositive
    exact sign_eq_positive_iff.mpr (positive (sign_eq_positive_iff.mp leftPositive).le)

/-- The ordered bytes order the numbers at their first difference. -/
theorem orderCode_canonicalOrderBytes : OrderCode canonicalOrderBytes := by
  intro left right less
  have signs := sign_of_compare_eq_lt less
  rw [compare_eq_lt_iff] at less
  cases leftSign : left.sign with
  | negative =>
    rw [canonicalOrderBytes_negative leftSign]
    cases rightSign : right.sign with
    | negative =>
      rw [canonicalOrderBytes_negative rightSign]
      apply Precedes.tail
      have magnitudes : Precedes (right.magnitudePath (by simp [rightSign]))
          (left.magnitudePath (by simp [leftSign])) := by
        apply precedes_encodePositiveOrderPath
        have leftAbs := ofNat_natAbs_of_nonpos (sign_eq_negative_iff.mp leftSign).le
        have rightAbs := ofNat_natAbs_of_nonpos (sign_eq_negative_iff.mp rightSign).le
        zify
        rw [← natCast_natAbs, ← natCast_natAbs, leftAbs, rightAbs]
        linarith
      apply magnitudes.map_mirror
      intro rightToken rightMem leftToken leftMem
      exact compare_mirror (encodePositiveOrderPath_le rightMem)
        (encodePositiveOrderPath_le leftMem)
    | zero =>
      rw [canonicalOrderBytes_zero rightSign]
      exact .head _ _ rfl
    | positive =>
      rw [canonicalOrderBytes_positive rightSign]
      exact .head _ _ rfl
  | zero =>
    rw [canonicalOrderBytes_zero leftSign,
      canonicalOrderBytes_positive (signs.1 (by simp [leftSign]))]
    exact .head _ _ rfl
  | positive =>
    have rightSign := signs.2 leftSign
    rw [canonicalOrderBytes_positive leftSign, canonicalOrderBytes_positive rightSign]
    apply Precedes.tail
    apply precedes_encodePositiveOrderPath
    have leftAbs := natAbs_of_nonneg (sign_eq_positive_iff.mp leftSign).le
    have rightAbs := natAbs_of_nonneg (sign_eq_positive_iff.mp rightSign).le
    zify
    rw [← natCast_natAbs, ← natCast_natAbs, leftAbs, rightAbs]
    exact less

/-- The ordered bytes compare as the rationals do, no byte string is a prefix of
another, and only the three tokens occur. -/
theorem canonicalOrderBytes_order (left right : ExactNumber) :
    compare left.canonicalOrderBytes right.canonicalOrderBytes = compare left.toRat right.toRat ∧
      compare left right = compare left.toRat right.toRat ∧
      (left ≠ right → ¬ left.canonicalOrderBytes <+: right.canonicalOrderBytes) ∧
      ∀ token ∈ left.canonicalOrderBytes, token.toNat ≤ 2 := by
  refine ⟨?_, compare_eq_compare_toRat left right, ?_, ?_⟩
  · rw [orderCode_canonicalOrderBytes.compare_eq, compare_eq_compare_toRat]
  · exact orderCode_canonicalOrderBytes.not_isPrefix
  · intro token member
    exact UInt8.le_iff_toNat_le.mp (canonicalOrderBytes_le member)

end ExactNumber

end BoonCircuit.Data
