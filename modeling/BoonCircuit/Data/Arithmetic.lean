import BoonCircuit.Data.Number
import BoonCircuit.Lib.Checks
import Mathlib.Tactic.Positivity
import Mathlib.Data.Rat.Floor
import Mathlib.Data.Nat.Cast.Field

/-!
# Exact arithmetic

The operations of `ExactNumber`.  The four field operations are exact: each builds
an unreduced ratio, and normalization either returns the canonical form of that
ratio or reports that a component exceeds its bit budget.  Multiplication cancels
crosswise first, which changes the ratio's presentation but not its value.  An
estimate of the work is checked before anything is multiplied.
-/

namespace BoonCircuit.Data

open Lib Int

/-- Exact rounding rules of the number algebra. -/
inductive ExactRoundingRule where
  | nearestEven
  | nearestAwayFromZero
  | towardZero
  | towardPositive
  | towardNegative
  | awayFromZero
  deriving DecidableEq

/-- The largest 64-bit word bounds every counter of the work estimate. -/
def saturate (count : Nat) : Nat :=
  min count (2 ^ 64 - 1)

namespace ExactNumber

def one : ExactNumber := ofInt 1

def fromI64 (value : Int64) : ExactNumber := ofInt value.toInt

def fromU64 (value : UInt64) : ExactNumber := ofInt value.toNat

def fromUsize (value : UInt64) : ExactNumber := ofInt value.toNat

variable (number : ExactNumber)

def isZero : Bool := number.numerator = 0

def isPositive : Bool := 0 < number.numerator

def isNegative : Bool := number.numerator < 0

def isWhole : Bool := number.denominator = 1

/-- Normalization under the default profile. -/
def fromRatio (numerator : Int) (denominator : Nat) : Except ExactNumberError ExactNumber :=
  fromRatioWithProfile numerator denominator .default

/-- The exact rational denoted by the bits of a finite binary64 value. -/
def fromF64BoundaryExact (bits : UInt64) : Except ExactNumberError ExactNumber :=
  let exponentBits : Int := ((bits >>> 52) &&& 0x7ff).toNat
  if exponentBits = 0x7ff then
    .error ⟨"external binary64 Number boundary requires a finite value"⟩
  else if bits &&& 0x7fffffffffffffff = 0 then .ok zero
  else
    let negative := bits >>> 63 ≠ 0
    let fraction := bits &&& (((1 : UInt64) <<< 52) - 1)
    let (significand, exponent) : UInt64 × Int :=
      if exponentBits = 0 then (fraction, -1074)
      else (((1 : UInt64) <<< 52) ||| fraction, exponentBits - 1023 - 52)
    let (numerator, denominator) : Nat × Nat :=
      if 0 ≤ exponent then (significand.toNat <<< exponent.toNat, 1)
      else (significand.toNat, 1 <<< exponent.natAbs)
    fromRatio (if negative then -(numerator : Int) else numerator) denominator

variable (left right : ExactNumber)

/-- The conservative estimate of the bit work of one operation. -/
def binaryWork : Nat :=
  saturate (saturate (left.componentBits.1 + left.componentBits.2) *
    saturate (right.componentBits.1 + right.componentBits.2))

variable (profile : ExactNumberSemanticProfileV1)

/-- Rejects an operation whose work estimate exceeds the profile. -/
def checkBinaryWork (operation : String) : Except ExactNumberError Unit :=
  let work := binaryWork left right
  if profile.maxArithmeticBitWork < work then
    .error ⟨"exact Number " ++ operation ++ " work budget exceeded: " ++ toString work ++
      " > " ++ toString profile.maxArithmeticBitWork⟩
  else .ok ()

def checkedAddWithProfile : Except ExactNumberError ExactNumber := do
  checkBinaryWork left right profile "addition"
  let numerator := left.numerator * right.denominator + right.numerator * left.denominator
  let denominator := left.denominator * right.denominator
  fromRatioWithProfile numerator denominator profile

def checkedAdd : Except ExactNumberError ExactNumber :=
  checkedAddWithProfile left right .default

def checkedSubWithProfile : Except ExactNumberError ExactNumber := do
  checkBinaryWork left right profile "subtraction"
  let numerator := left.numerator * right.denominator - right.numerator * left.denominator
  let denominator := left.denominator * right.denominator
  fromRatioWithProfile numerator denominator profile

def checkedSub : Except ExactNumberError ExactNumber :=
  checkedSubWithProfile left right .default

def checkedMulWithProfile : Except ExactNumberError ExactNumber := do
  checkBinaryWork left right profile "multiplication"
  let leftCancel := left.numerator.natAbs.gcd right.denominator
  let rightCancel := right.numerator.natAbs.gcd left.denominator
  let leftNumerator := left.numerator.tdiv leftCancel
  let rightNumerator := right.numerator.tdiv rightCancel
  let leftDenominator := left.denominator / rightCancel
  let rightDenominator := right.denominator / leftCancel
  fromRatioWithProfile (leftNumerator * rightNumerator) (leftDenominator * rightDenominator) profile

def checkedMul : Except ExactNumberError ExactNumber :=
  checkedMulWithProfile left right .default

def checkedDivWithProfile : Except ExactNumberError ExactNumber := do
  if right.isZero then
    throw ⟨"exact Number division by zero"⟩
  checkBinaryWork left right profile "division"
  let magnitude := left.numerator.natAbs * right.denominator
  let numerator : Int :=
    if left.isZero then 0
    else if left.sign = right.sign then magnitude
    else -magnitude
  let denominator := left.denominator * right.numerator.natAbs
  fromRatioWithProfile numerator denominator profile

def checkedDiv : Except ExactNumberError ExactNumber :=
  checkedDivWithProfile left right .default

/-- Euclidean remainder over whole numbers. -/
def checkedRem : Except ExactNumberError ExactNumber :=
  if !left.isWhole || !right.isWhole then
    .error ⟨"exact Number remainder requires whole operands"⟩
  else if right.isZero then
    .error ⟨"exact Number remainder by zero"⟩
  else .ok (ofInt (left.numerator.fmod |right.numerator|))

/-- The whole number a rule chooses next to `scaled`. -/
def roundScaled (scaled : ExactNumber) (rule : ExactRoundingRule) : Int :=
  let denominator : Int := scaled.denominator
  let floor := scaled.numerator.fdiv denominator
  let remainder := scaled.numerator.fmod denominator
  let exact := remainder = 0
  let ceil := if exact then floor else floor + 1
  match rule with
  | .towardNegative => floor
  | .towardPositive => ceil
  | .towardZero => if scaled.isNegative ∧ ¬ exact then ceil else floor
  | .awayFromZero => if scaled.isNegative then floor else ceil
  | .nearestEven =>
    match compare (remainder * 2) denominator with
    | .lt => floor
    | .gt => ceil
    | .eq => if 2 ∣ floor then floor else ceil
  | .nearestAwayFromZero =>
    match compare (remainder * 2) denominator with
    | .lt => floor
    | .gt => ceil
    | .eq => if scaled.isNegative then floor else ceil

def roundToWithProfile (number quantum : ExactNumber) (rule : ExactRoundingRule)
    (profile : ExactNumberSemanticProfileV1) : Except ExactNumberError ExactNumber := do
  if !quantum.isPositive then
    throw ⟨"exact Number rounding quantum must be strictly positive"⟩
  let scaled ← checkedDivWithProfile number quantum profile
  checkedMulWithProfile quantum (ofInt (roundScaled scaled rule)) profile

def roundTo (number quantum : ExactNumber) (rule : ExactRoundingRule) :
    Except ExactNumberError ExactNumber :=
  roundToWithProfile number quantum rule .default

def floor : ExactNumber :=
  ofInt (number.numerator.fdiv number.denominator)

def ceil : ExactNumber :=
  ofInt (-(-number.numerator).fdiv number.denominator)

def truncate : ExactNumber :=
  ofInt (number.numerator.tdiv number.denominator)

def abs : ExactNumber where
  numerator := |number.numerator|
  denominator := number.denominator
  denominator_pos := number.denominator_pos
  reduced := by
    rw [natAbs_abs]
    exact number.reduced

/-- The canonical form of a rational. -/
def ofRat (value : ℚ) : ExactNumber where
  numerator := value.num
  denominator := value.den
  denominator_pos := value.den_pos
  reduced := value.reduced

variable {number result left right : ExactNumber} {value : ℚ} {numerator : Int}
  {denominator factor : Nat}
  {profile : ExactNumberSemanticProfileV1} {refused : Prop}

theorem eq_ofRat_iff : number = ofRat value ↔ number.toRat = value := by
  constructor
  · rintro rfl
    rfl
  · intro same
    exact toRat_injective same

theorem toRat_eq_div (number : ExactNumber) :
    number.toRat = (number.numerator : ℚ) / number.denominator :=
  (Rat.num_div_den number.toRat).symm

theorem denominator_ne_zero (number : ExactNumber) : (number.denominator : ℚ) ≠ 0 :=
  Nat.cast_ne_zero.mpr number.denominator_pos.ne'

/-- Normalization returns the canonical form of the ratio, or an error that depends
on this form only. -/
theorem fromRatioWithProfile_eq (denominatorPos : 0 < denominator) :
    fromRatioWithProfile numerator denominator profile =
      if numerator = 0 then .ok zero
      else match (ofRat ((numerator : ℚ) / denominator)).checkProfile profile with
        | .ok () => .ok (ofRat ((numerator : ℚ) / denominator))
        | .error fault => .error fault := by
  unfold fromRatioWithProfile
  rw [dif_neg denominatorPos.ne']
  split
  · rfl
  · have divides : ((numerator.natAbs.gcd denominator : Nat) : Int) ∣ numerator :=
      natCast_dvd.mpr (Nat.gcd_dvd_left _ _)
    have divisorNe : ((numerator.natAbs.gcd denominator : Nat) : ℚ) ≠ 0 :=
      Nat.cast_ne_zero.mpr (Nat.gcd_pos_of_pos_right _ denominatorPos).ne'
    have normal : ∀ proof₁ proof₂,
        (⟨numerator.tdiv (numerator.natAbs.gcd denominator : Nat),
          denominator / numerator.natAbs.gcd denominator, proof₁, proof₂⟩ : ExactNumber) =
          ofRat ((numerator : ℚ) / denominator) := by
      intro proof₁ proof₂
      rw [eq_ofRat_iff, toRat_eq_div]
      dsimp only
      rw [tdiv_eq_ediv_of_dvd divides, cast_div divides (by exact_mod_cast divisorNe),
        Nat.cast_div (Nat.gcd_dvd_right _ _) divisorNe, cast_natCast,
        div_div_div_cancel_right₀ divisorNe]
    cases checked : (ofRat ((numerator : ℚ) / denominator)).checkProfile profile <;>
      simp only [normal, checked]

theorem ratio_eq_zero_iff (denominatorPos : 0 < denominator) :
    (numerator : ℚ) / denominator = 0 ↔ numerator = 0 := by
  simp [denominatorPos.ne']

theorem fromRatioWithProfile_congr {numerator' : Int} {denominator' : Nat}
    (denominatorPos : 0 < denominator)
    (denominatorPos' : 0 < denominator')
    (same : (numerator : ℚ) / denominator = (numerator' : ℚ) / denominator') :
    fromRatioWithProfile numerator denominator profile =
      fromRatioWithProfile numerator' denominator' profile := by
  have zeroIff : numerator = 0 ↔ numerator' = 0 := by
    rw [← ratio_eq_zero_iff denominatorPos, ← ratio_eq_zero_iff denominatorPos', same]
  rw [fromRatioWithProfile_eq denominatorPos, fromRatioWithProfile_eq denominatorPos', same]
  simp only [zeroIff]

theorem withinProfile_zero : zero.WithinProfile .default := by
  simp [WithinProfile, componentBits, zero, ExactNumberSemanticProfileV1.default,
    maxNumberComponentBits]

/-- The outcome is the exact value, unless the operation is refused or a component of
the canonical form of the value exceeds its bit budget. -/
structure Computes (outcome : Except ExactNumberError ExactNumber) (refused : Prop) (value : ℚ) :
    Prop where
  ok_iff : ∀ result : ExactNumber, outcome = .ok result ↔
    ¬ refused ∧ result.toRat = value ∧ result.WithinProfile .default
  error_iff : (∃ fault, outcome = .error fault) ↔ refused ∨ ¬ (ofRat value).WithinProfile .default

theorem computes_of_ok_iff {outcome : Except ExactNumberError ExactNumber}
    (okIff : ∀ result : ExactNumber, outcome = .ok result ↔
      ¬ refused ∧ result.toRat = value ∧
        result.WithinProfile .default) : Computes outcome refused value := by
  refine ⟨okIff, ?_⟩
  have canonical := okIff (ofRat value)
  cases outcome with
  | error =>
    tauto
  | ok result =>
    have given := (okIff result).mp rfl
    have same : result = ofRat value := eq_ofRat_iff.mpr given.2.1
    simp only [reduceCtorEq, exists_false, false_iff, not_or, not_not]
    exact ⟨given.1, same ▸ given.2.2⟩

theorem fromRatio_eq_ok_iff (denominatorPos : 0 < denominator) :
    fromRatio numerator denominator = .ok result ↔
      result.toRat = (numerator : ℚ) / denominator ∧ result.WithinProfile .default := by
  rw [fromRatio, fromRatioWithProfile_eq denominatorPos, ← eq_ofRat_iff]
  by_cases numeratorZero : numerator = 0
  · subst numeratorZero
    have canonical : ofRat (((0 : Int) : ℚ) / denominator) = zero :=
      (eq_ofRat_iff.mpr (by simp [toRat_eq_div, zero])).symm
    rw [if_pos rfl, Except.ok.injEq, canonical]
    constructor
    · rintro rfl
      exact ⟨rfl, withinProfile_zero⟩
    · rintro ⟨rfl, _⟩
      rfl
  · rw [if_neg numeratorZero]
    split
    · rename_i inside
      rw [Except.ok.injEq]
      constructor
      · rintro rfl
        exact ⟨rfl, checkProfile_eq_ok_iff.mp inside⟩
      · rintro ⟨rfl, _⟩
        rfl
    · rename_i fault outside
      simp only [reduceCtorEq, false_iff, not_and]
      rintro rfl within
      rw [checkProfile_eq_ok_iff.mpr within] at outside
      cases outside

theorem computes_of_check {check : Except ExactNumberError Unit}
    (checked : check = .ok () ↔ ¬ refused) (denominatorPos : ¬ refused → 0 < denominator)
    (exact : ¬ refused → (numerator : ℚ) / denominator = value) :
    Computes (check >>= fun _ => fromRatio numerator denominator) refused value := by
  apply computes_of_ok_iff
  intro result
  rw [Checks.check_bind_eq_ok_iff, checked]
  apply and_congr_right
  intro accepted
  rw [fromRatio_eq_ok_iff (denominatorPos accepted), exact accepted]

/-- The work estimate of an operation exceeds the default profile. -/
def WorkExceeded (left right : ExactNumber) : Prop :=
  ExactNumberSemanticProfileV1.default.maxArithmeticBitWork < binaryWork left right

theorem checkBinaryWork_eq_ok_iff {operation : String} :
    checkBinaryWork left right .default operation = .ok () ↔ ¬ WorkExceeded left right := by
  unfold checkBinaryWork WorkExceeded
  dsimp only
  split <;> simp_all

theorem checkedAdd_checkedSub_compute (left right : ExactNumber) :
    Computes (checkedAdd left right) (WorkExceeded left right) (left.toRat + right.toRat) ∧
      Computes (checkedSub left right) (WorkExceeded left right) (left.toRat - right.toRat) := by
  constructor
  all_goals
    apply computes_of_check checkBinaryWork_eq_ok_iff
    · intro _
      exact Nat.mul_pos left.denominator_pos right.denominator_pos
    · intro _
      have leftNe := left.denominator_ne_zero
      have rightNe := right.denominator_ne_zero
      rw [toRat_eq_div, toRat_eq_div]
      push_cast
      field_simp

private theorem cast_tdiv_gcd (numerator : Int) (factorPos : 0 < factor) :
    ((numerator.tdiv (numerator.natAbs.gcd factor : Nat) : Int) : ℚ) =
      (numerator : ℚ) / (numerator.natAbs.gcd factor : Nat) := by
  have divides : ((numerator.natAbs.gcd factor : Nat) : Int) ∣ numerator :=
    natCast_dvd.mpr (Nat.gcd_dvd_left _ _)
  have divisorNe : ((numerator.natAbs.gcd factor : Nat) : ℚ) ≠ 0 :=
    Nat.cast_ne_zero.mpr (Nat.gcd_pos_of_pos_right _ factorPos).ne'
  rw [tdiv_eq_ediv_of_dvd divides, cast_div divides (by exact_mod_cast divisorNe), cast_natCast]

private theorem cast_div_gcd (magnitude : Nat) (factorPos : 0 < factor) :
    ((factor / magnitude.gcd factor : Nat) : ℚ) = (factor : ℚ) / (magnitude.gcd factor : Nat) :=
  Nat.cast_div (Nat.gcd_dvd_right _ _)
    (Nat.cast_ne_zero.mpr (Nat.gcd_pos_of_pos_right _ factorPos).ne')

/-- Cancelling crosswise before multiplying changes neither the result nor the error. -/
theorem checkedMulWithProfile_eq_direct (left right : ExactNumber)
    (profile : ExactNumberSemanticProfileV1) :
    checkedMulWithProfile left right profile =
      (checkBinaryWork left right profile "multiplication" >>= fun _ =>
        fromRatioWithProfile (left.numerator * right.numerator)
          (left.denominator * right.denominator) profile) := by
  have leftPos := left.denominator_pos
  have rightPos := right.denominator_pos
  have leftCancelPos : 0 < left.numerator.natAbs.gcd right.denominator :=
    Nat.gcd_pos_of_pos_right _ rightPos
  have rightCancelPos : 0 < right.numerator.natAbs.gcd left.denominator :=
    Nat.gcd_pos_of_pos_right _ leftPos
  unfold checkedMulWithProfile
  congr 1
  funext _
  apply fromRatioWithProfile_congr
  · exact Nat.mul_pos (Nat.div_pos (Nat.gcd_le_right _ leftPos) rightCancelPos)
      (Nat.div_pos (Nat.gcd_le_right _ rightPos) leftCancelPos)
  · exact Nat.mul_pos leftPos rightPos
  · have leftNe := left.denominator_ne_zero
    rw [cast_mul, Nat.cast_mul, cast_tdiv_gcd _ rightPos, cast_tdiv_gcd _ leftPos,
      cast_div_gcd _ leftPos, cast_div_gcd _ rightPos, cast_mul, Nat.cast_mul]
    field_simp

theorem checkedMul_computes (left right : ExactNumber) :
    Computes (checkedMul left right) (WorkExceeded left right) (left.toRat * right.toRat) := by
  rw [checkedMul, checkedMulWithProfile_eq_direct]
  apply computes_of_check checkBinaryWork_eq_ok_iff
  · intro _
    exact Nat.mul_pos left.denominator_pos right.denominator_pos
  · intro _
    rw [toRat_eq_div, toRat_eq_div, div_mul_div_comm]
    push_cast
    rfl

private theorem quotient_numerator (left right : ExactNumber) (divisorNe : right.numerator ≠ 0) :
    (if left.isZero then (0 : Int)
      else if left.sign = right.sign then ((left.numerator.natAbs * right.denominator : Nat) : Int)
      else -((left.numerator.natAbs * right.denominator : Nat) : Int)) =
      left.numerator * right.numerator.sign * right.denominator := by
  unfold isZero sign
  rcases lt_trichotomy left.numerator 0 with leftNeg | leftZero | leftPos
  · rcases lt_or_gt_of_ne divisorNe with rightNeg | rightPos
    · rw [sign_eq_neg_one_of_neg rightNeg]
      simp [leftNeg, rightNeg, leftNeg.ne, abs_of_neg leftNeg]
    · rw [sign_eq_one_of_pos rightPos]
      simp [leftNeg, rightPos.not_gt, divisorNe, leftNeg.ne, abs_of_neg leftNeg]
  · simp [leftZero]
  · rcases lt_or_gt_of_ne divisorNe with rightNeg | rightPos
    · rw [sign_eq_neg_one_of_neg rightNeg]
      simp [leftPos.not_gt, leftPos.ne', rightNeg, abs_of_pos leftPos]
    · rw [sign_eq_one_of_pos rightPos]
      simp [leftPos.not_gt, leftPos.ne', rightPos.not_gt, divisorNe, abs_of_pos leftPos]

theorem checkedDiv_computes (left right : ExactNumber) :
    Computes (checkedDiv left right) (right = zero ∨ WorkExceeded left right)
      (left.toRat / right.toRat) := by
  by_cases divisorZero : right.numerator = 0
  · have isZero : right = zero := eq_zero_of_numerator_eq_zero divisorZero
    have refused : checkedDiv left right = .error ⟨"exact Number division by zero"⟩ := by
      simp only [checkedDiv, checkedDivWithProfile, ExactNumber.isZero, divisorZero]
      rfl
    apply computes_of_ok_iff
    intro result
    rw [refused]
    simp [isZero]
  · have divisorNe : right ≠ zero := by
      rintro rfl
      exact divisorZero rfl
    have accepted : checkedDiv left right =
        (checkBinaryWork left right .default "division" >>= fun _ =>
          fromRatio (left.numerator * right.numerator.sign * right.denominator)
            (left.denominator * right.numerator.natAbs)) := by
      rw [← quotient_numerator left right divisorZero]
      simp [checkedDiv, checkedDivWithProfile, ExactNumber.isZero, divisorZero, fromRatio]
    rw [accepted]
    apply computes_of_check
    · rw [checkBinaryWork_eq_ok_iff, or_iff_right divisorNe]
    · intro _
      exact Nat.mul_pos left.denominator_pos (natAbs_pos.mpr divisorZero)
    · intro _
      rw [toRat_eq_div, toRat_eq_div]
      have signNe : ((right.numerator.sign : Int) : ℚ) ≠ 0 :=
        cast_ne_zero.mpr (sign_eq_zero_iff_zero.not.mpr divisorZero)
      have magnitude : ((right.numerator.natAbs : Nat) : ℚ) =
          (right.numerator.sign : ℚ) * right.numerator := by
        rw [← cast_natCast, ← cast_mul, sign_mul_self_eq_natAbs]
      rw [Nat.cast_mul, magnitude]
      push_cast
      field_simp

theorem withinProfile_ofInt_of_natAbs_le {value : Int} (within : number.WithinProfile .default)
    (smaller : value.natAbs ≤ number.numerator.natAbs) : (ofInt value).WithinProfile .default := by
  constructor
  · exact (Nat.size_le_size smaller).trans within.1
  · exact withinProfile_zero.2

theorem withinProfile_ofInt_of_natAbs_lt {value : Int} (word : value.natAbs < 2 ^ 64) :
    (ofInt value).WithinProfile .default := by
  constructor
  · have bits : value.natAbs.size ≤ 64 := Nat.size_le.mpr word
    exact bits.trans (by decide)
  · exact withinProfile_zero.2

theorem withinProfile_fromI64 (value : Int64) : (fromI64 value).WithinProfile .default := by
  apply withinProfile_ofInt_of_natAbs_lt
  have lower := value.le_toInt
  have upper := value.toInt_lt
  omega

theorem withinProfile_fromU64 (value : UInt64) : (fromU64 value).WithinProfile .default := by
  apply withinProfile_ofInt_of_natAbs_lt
  have upper := value.toNat_lt
  omega

private theorem natAbs_fdiv_le (numerator : Int) (denominator : Nat) :
    (numerator.fdiv denominator).natAbs ≤ numerator.natAbs := by
  rw [fdiv_eq_ediv_of_nonneg _ (natCast_nonneg denominator)]
  exact natAbs_ediv_le_natAbs numerator denominator

section Within

variable (within : number.WithinProfile .default)

include within

theorem withinProfile_floor : number.floor.WithinProfile .default :=
  withinProfile_ofInt_of_natAbs_le within (natAbs_fdiv_le _ _)

theorem withinProfile_ceil : number.ceil.WithinProfile .default := by
  apply withinProfile_ofInt_of_natAbs_le within
  rw [natAbs_neg, ← natAbs_neg number.numerator]
  exact natAbs_fdiv_le _ _

theorem withinProfile_truncate : number.truncate.WithinProfile .default := by
  apply withinProfile_ofInt_of_natAbs_le within
  rw [natAbs_tdiv]
  exact Nat.div_le_self _ _

theorem withinProfile_abs : number.abs.WithinProfile .default := by
  constructor
  · change (|number.numerator|).natAbs.size ≤ _
    rw [natAbs_abs]
    exact within.1
  · exact within.2

end Within

theorem checkedRem_eq_ok_iff :
    checkedRem left right = .ok result ↔
      left.isWhole ∧ right.isWhole ∧ right.isZero = false ∧
        result = ofInt (left.numerator.fmod |right.numerator|) := by
  unfold checkedRem
  split
  · rename_i fractional
    simp only [Bool.or_eq_true, Bool.not_eq_true'] at fractional ⊢
    rcases fractional with fractional | fractional <;> simp [fractional]
  · rename_i whole
    simp only [Bool.or_eq_true, Bool.not_eq_true', not_or] at whole
    split
    · rename_i divisorZero
      simp [divisorZero]
    · rename_i divisorNonzero
      simp [whole, divisorNonzero, eq_comm]

theorem withinProfile_checkedRem (within : right.WithinProfile .default)
    (computed : checkedRem left right = .ok result) : result.WithinProfile .default := by
  obtain ⟨_, _, divisorNonzero, rfl⟩ := checkedRem_eq_ok_iff.mp computed
  have divisorNe : right.numerator ≠ 0 := by simpa [isZero] using divisorNonzero
  apply withinProfile_ofInt_of_natAbs_le within
  have divisorPos : 0 < |right.numerator| := abs_pos.mpr divisorNe
  have nonnegative := fmod_nonneg_of_pos left.numerator divisorPos
  have below := fmod_lt_of_pos left.numerator divisorPos
  have magnitude := natAbs_abs right.numerator
  omega

theorem withinProfile_fromRatio (computed : fromRatio numerator denominator = .ok result) :
    result.WithinProfile .default := by
  rcases Nat.eq_zero_or_pos denominator with rfl | denominatorPos
  · simp [fromRatio, fromRatioWithProfile] at computed
  · exact ((fromRatio_eq_ok_iff denominatorPos).mp computed).2

theorem withinProfile_fromF64BoundaryExact {bits : UInt64}
    (computed : fromF64BoundaryExact bits = .ok result) : result.WithinProfile .default := by
  unfold fromF64BoundaryExact at computed
  dsimp only at computed
  split at computed
  · cases computed
  · split at computed
    · cases computed
      exact withinProfile_zero
    · exact withinProfile_fromRatio computed

theorem withinProfile_roundTo {quantum : ExactNumber} {rule : ExactRoundingRule}
    (computed : roundTo number quantum rule = .ok result) : result.WithinProfile .default := by
  unfold roundTo roundToWithProfile at computed
  split at computed
  · cases computed
  · obtain ⟨_, _, computed⟩ := Checks.bind_eq_ok_iff.mp computed
    exact ((checkedMul_computes _ _).ok_iff result).mp computed |>.2.2

end ExactNumber

end BoonCircuit.Data
