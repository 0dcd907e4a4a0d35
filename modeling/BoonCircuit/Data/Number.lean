import BoonCircuit.Lib.BigEndian
import BoonCircuit.Lib.Order

/-!
# Exact numbers

`ExactNumber` is the canonical arbitrary-precision rational of `boon_data`.  The
denominator is positive and coprime to the numerator, so zero is only `0 / 1`.
The canonical byte form is a sign together with the minimal big-endian strings
of the numerator magnitude and of the denominator; `fromCanonicalBytes` accepts
it only for numbers inside the default semantic profile.
-/

namespace BoonCircuit.Data

open Lib BigEndian

/-- Default maximum size of either canonical rational component. -/
def maxNumberComponentBits : Nat := 1048576

/-- Default maximum number of source digits consumed by one parse. -/
def maxNumberParsedDigits : Nat := 4096

/-- Default maximum number of digits emitted by one format. -/
def maxNumberFormattedDigits : Nat := 4096

/-- Default upper bound for the conservative arithmetic work estimate. -/
def maxNumberArithmeticBitWork : Nat := 16 * 1024 * 1024

/-- Versioned deterministic limits of the exact number evaluator.  Only the two
component limits take part in the canonical byte form. -/
structure ExactNumberSemanticProfileV1 where
  maxNumeratorBits : Nat
  maxDenominatorBits : Nat
  maxParsedDigits : Nat
  maxFormattedDigits : Nat
  maxArithmeticBitWork : Nat
  deriving DecidableEq

/-- The default profile. -/
def ExactNumberSemanticProfileV1.default : ExactNumberSemanticProfileV1 where
  maxNumeratorBits := maxNumberComponentBits
  maxDenominatorBits := maxNumberComponentBits
  maxParsedDigits := maxNumberParsedDigits
  maxFormattedDigits := maxNumberFormattedDigits
  maxArithmeticBitWork := maxNumberArithmeticBitWork

/-- Deterministic number construction, domain or resource failure. -/
structure ExactNumberError where
  message : String
  deriving DecidableEq

/-- Stable sign code used by canonical wire and persistence encodings. -/
inductive ExactNumberSign where
  | negative
  | zero
  | positive
  deriving DecidableEq

namespace ExactNumberSign

/-- The discriminant of a sign. -/
def toByte : ExactNumberSign → UInt8
  | .negative => 0
  | .zero => 1
  | .positive => 2

/-- The checked inverse of the discriminant. -/
def tryFrom (value : UInt8) : Except ExactNumberError ExactNumberSign :=
  match value with
  | 0 => .ok .negative
  | 1 => .ok .zero
  | 2 => .ok .positive
  | other => .error ⟨"unknown exact Number sign code " ++ toString other⟩

theorem tryFrom_eq_ok_iff {value : UInt8} {sign : ExactNumberSign} :
    tryFrom value = .ok sign ↔ value = sign.toByte := by
  constructor
  · intro accepted
    unfold tryFrom at accepted
    split at accepted <;> cases accepted <;> rfl
  · rintro rfl
    cases sign <;> rfl

end ExactNumberSign

/-- Canonical exact rational: positive denominator, coprime components. -/
@[ext]
structure ExactNumber where
  numerator : Int
  denominator : Nat
  denominator_pos : 0 < denominator
  reduced : numerator.natAbs.Coprime denominator
  deriving Repr

instance : DecidableEq ExactNumber := fun left right =>
  decidable_of_iff (left.numerator = right.numerator ∧ left.denominator = right.denominator)
    ExactNumber.ext_iff.symm

namespace ExactNumber

/-- The number `0 / 1`. -/
def zero : ExactNumber where
  numerator := 0
  denominator := 1
  denominator_pos := Nat.one_pos
  reduced := Nat.coprime_one_right 0

/-- A whole number. -/
def ofInt (value : Int) : ExactNumber where
  numerator := value
  denominator := 1
  denominator_pos := Nat.one_pos
  reduced := Nat.coprime_one_right value.natAbs

variable (number : ExactNumber)

/-- The sign of the numerator. -/
def sign : ExactNumberSign :=
  if number.numerator < 0 then .negative
  else if number.numerator = 0 then .zero
  else .positive

/-- Minimal big-endian magnitude of the numerator; empty for zero. -/
def numeratorMagnitudeBytes : List UInt8 :=
  if number.numerator = 0 then [] else toBytes number.numerator.natAbs

/-- Minimal big-endian bytes of the denominator. -/
def denominatorBytes : List UInt8 :=
  toBytes number.denominator

/-- Bit lengths of the numerator magnitude and of the denominator. -/
def componentBits : Nat × Nat :=
  (number.numerator.natAbs.size, number.denominator.size)

/-- Rejects a number whose components exceed the profile. -/
def checkProfile (profile : ExactNumberSemanticProfileV1) : Except ExactNumberError Unit :=
  let (numeratorBits, denominatorBits) := number.componentBits
  if profile.maxNumeratorBits < numeratorBits then
    .error ⟨"exact Number numerator bit budget exceeded: " ++ toString numeratorBits ++
      " > " ++ toString profile.maxNumeratorBits⟩
  else if profile.maxDenominatorBits < denominatorBits then
    .error ⟨"exact Number denominator bit budget exceeded: " ++ toString denominatorBits ++
      " > " ++ toString profile.maxDenominatorBits⟩
  else .ok ()

/-- Attaches a nonzero sign to a magnitude. -/
def signedMagnitude (sign : ExactNumberSign) (magnitude : Nat) : Int :=
  if sign = .negative then -(magnitude : Int) else magnitude

@[simp]
theorem natAbs_signedMagnitude (sign : ExactNumberSign) (magnitude : Nat) :
    (signedMagnitude sign magnitude).natAbs = magnitude := by
  unfold signedMagnitude
  split <;> simp

/-- Normalizes a ratio and checks it against a profile. -/
def fromRatioWithProfile (numerator : Int) (denominator : Nat)
    (profile : ExactNumberSemanticProfileV1) : Except ExactNumberError ExactNumber :=
  if denominatorZero : denominator = 0 then
    .error ⟨"exact Number denominator must be positive"⟩
  else if numerator = 0 then .ok zero
  else
    let magnitude := numerator.natAbs.gcd denominator
    have magnitudePos : 0 < magnitude :=
      Nat.gcd_pos_of_pos_right _ (Nat.pos_of_ne_zero denominatorZero)
    let value : ExactNumber := {
      numerator := numerator.tdiv magnitude
      denominator := denominator / magnitude
      denominator_pos :=
        Nat.div_pos (Nat.gcd_le_right _ (Nat.pos_of_ne_zero denominatorZero)) magnitudePos
      reduced := by
        rw [Int.natAbs_tdiv, Int.natAbs_natCast]
        exact Nat.coprime_div_gcd_div_gcd magnitudePos }
    match value.checkProfile profile with
    | .ok () => .ok value
    | .error fault => .error fault

/-- Reconstructs a value only from the minimal normalized encoding. -/
def fromCanonicalBytesWithProfile (sign : ExactNumberSign)
    (numeratorMagnitude denominatorBytes : List UInt8)
    (profile : ExactNumberSemanticProfileV1) : Except ExactNumberError ExactNumber :=
  if numeratorMagnitude.head? = some 0 then
    .error ⟨"exact Number numerator magnitude is not minimal"⟩
  else if denominatorBytes = [] ∨ denominatorBytes.head? = some 0 then
    .error ⟨"exact Number denominator encoding must be minimal and nonempty"⟩
  else
    let denominator := ofBytes denominatorBytes
    if denominatorZero : denominator = 0 then
      .error ⟨"exact Number denominator must be positive"⟩
    else
      let magnitude := ofBytes numeratorMagnitude
      if sign = .zero then
        if numeratorMagnitude ≠ [] ∨ denominator ≠ 1 then
          .error ⟨"exact Number zero must be encoded only as 0 / 1"⟩
        else .ok zero
      else if numeratorMagnitude = [] ∨ magnitude = 0 then
        .error ⟨"nonzero exact Number sign requires a numerator magnitude"⟩
      else if normalized : magnitude.gcd denominator = 1 then
        let value : ExactNumber := {
          numerator := signedMagnitude sign magnitude
          denominator := denominator
          denominator_pos := Nat.pos_of_ne_zero denominatorZero
          reduced := by simpa using normalized }
        match value.checkProfile profile with
        | .ok () => .ok value
        | .error fault => .error fault
      else
        .error ⟨"exact Number numerator and denominator are not normalized"⟩

/-- Reconstruction under the default profile. -/
def fromCanonicalBytes (sign : ExactNumberSign)
    (numeratorMagnitude denominatorBytes : List UInt8) : Except ExactNumberError ExactNumber :=
  fromCanonicalBytesWithProfile sign numeratorMagnitude denominatorBytes .default

/-- Both components respect the bit budgets of a profile. -/
def WithinProfile (profile : ExactNumberSemanticProfileV1) (number : ExactNumber) : Prop :=
  number.componentBits.1 ≤ profile.maxNumeratorBits ∧
    number.componentBits.2 ≤ profile.maxDenominatorBits

instance (profile : ExactNumberSemanticProfileV1) : DecidablePred (WithinProfile profile) :=
  fun _ => inferInstanceAs (Decidable (_ ∧ _))

variable {number : ExactNumber} {profile : ExactNumberSemanticProfileV1}
  {signCode : ExactNumberSign}

theorem checkProfile_eq_ok_iff :
    number.checkProfile profile = .ok () ↔ number.WithinProfile profile := by
  simp only [checkProfile, WithinProfile]
  split
  · rename_i exceeded
    simp only [reduceCtorEq, false_iff]
    omega
  · split
    · rename_i exceeded
      simp only [reduceCtorEq, false_iff]
      omega
    · simp only [true_iff]
      omega

theorem fromRatioWithProfile_one {value : Int} (within : (ofInt value).WithinProfile profile) :
    fromRatioWithProfile value 1 profile = .ok (ofInt value) := by
  by_cases valueZero : value = 0
  · subst valueZero
    rfl
  · have normal : ∀ proof₁ proof₂,
        (⟨value.tdiv (1 : Nat), 1 / 1, proof₁, proof₂⟩ : ExactNumber) = ofInt value :=
      fun _ _ => ExactNumber.ext (Int.tdiv_one value) rfl
    simp only [fromRatioWithProfile, Nat.one_ne_zero, dite_false, valueZero, if_false,
      Nat.gcd_one_right, normal, checkProfile_eq_ok_iff.mpr within]

theorem denominator_eq_one_of_numerator_eq_zero
    (numeratorZero : number.numerator = 0) : number.denominator = 1 := by
  have reduced := number.reduced
  rw [numeratorZero] at reduced
  simpa using reduced

theorem eq_zero_of_numerator_eq_zero (numeratorZero : number.numerator = 0) : number = zero :=
  ExactNumber.ext numeratorZero (denominator_eq_one_of_numerator_eq_zero numeratorZero)

theorem numeratorMagnitudeBytes_eq_toBytes (number : ExactNumber) :
    number.numeratorMagnitudeBytes = toBytes number.numerator.natAbs := by
  unfold numeratorMagnitudeBytes
  split
  · rename_i numeratorZero
    simp [numeratorZero]
  · rfl

theorem sign_eq_zero_iff : number.sign = .zero ↔ number.numerator = 0 := by
  unfold sign
  split
  · simp only [reduceCtorEq, false_iff]
    omega
  · split <;> simp_all

theorem signedMagnitude_sign (number : ExactNumber) :
    signedMagnitude number.sign number.numerator.natAbs = number.numerator := by
  rcases lt_trichotomy number.numerator 0 with negative | numeratorZero | _
  · simp only [sign, negative, if_true, signedMagnitude]
    omega
  · simp [numeratorZero, signedMagnitude]
  · have notNegative : ¬ number.numerator < 0 := by omega
    have nonzero : number.numerator ≠ 0 := by omega
    simp only [sign, notNegative, nonzero, if_false, signedMagnitude, reduceCtorEq]
    omega

theorem sign_mk_signedMagnitude {magnitude denominator : Nat}
    (nonzeroSign : signCode ≠ .zero) (nonzero : magnitude ≠ 0) (positive : 0 < denominator)
    (coprime : (signedMagnitude signCode magnitude).natAbs.Coprime denominator) :
    sign ⟨signedMagnitude signCode magnitude, denominator, positive, coprime⟩ = signCode := by
  have magnitudePos : 0 < magnitude := Nat.pos_of_ne_zero nonzero
  cases signCode with
  | negative => simp [sign, signedMagnitude, magnitudePos]
  | zero => exact absurd rfl nonzeroSign
  | positive => simp [sign, signedMagnitude, nonzero]

theorem denominatorBytes_ne_nil (number : ExactNumber) : number.denominatorBytes ≠ [] := by
  simpa [denominatorBytes] using number.denominator_pos.ne'

/-- The encoding side of a number passes every structural check of the decoder, so only
the profile can refuse it. -/
theorem fromCanonicalBytesWithProfile_encoding (number : ExactNumber)
    (profile : ExactNumberSemanticProfileV1) :
    fromCanonicalBytesWithProfile number.sign number.numeratorMagnitudeBytes
        number.denominatorBytes profile =
      if number.numerator = 0 then .ok number
      else match number.checkProfile profile with
        | .ok () => .ok number
        | .error fault => .error fault := by
  have magnitudeMinimal := head?_toBytes number.numerator.natAbs
  have denominatorMinimal := head?_toBytes number.denominator
  have denominatorNonempty := number.denominatorBytes_ne_nil
  have denominatorNonzero := number.denominator_pos.ne'
  rw [denominatorBytes] at denominatorNonempty
  rw [fromCanonicalBytesWithProfile, numeratorMagnitudeBytes_eq_toBytes, denominatorBytes,
    if_neg magnitudeMinimal, if_neg (by simp [denominatorNonempty, denominatorMinimal])]
  simp only [ofBytes_toBytes, dif_neg denominatorNonzero, sign_eq_zero_iff]
  by_cases numeratorZero : number.numerator = 0
  · have denominatorOne := denominator_eq_one_of_numerator_eq_zero numeratorZero
    rw [if_pos numeratorZero, if_pos numeratorZero,
      if_neg (by simp [numeratorZero, denominatorOne]),
      eq_zero_of_numerator_eq_zero numeratorZero]
  · have coprime : number.numerator.natAbs.gcd number.denominator = 1 := number.reduced
    simp only [numeratorZero, if_false, toBytes_eq_nil_iff, Int.natAbs_eq_zero,
      or_self, dif_pos coprime]
    simp only [signedMagnitude_sign]

/-- Canonical reconstruction accepts exactly the byte form of the returned number. -/
theorem fromCanonicalBytes_eq_ok_iff {magnitudeBytes denominatorBytes' : List UInt8} :
    fromCanonicalBytes signCode magnitudeBytes denominatorBytes' = .ok number ↔
      number.WithinProfile .default ∧ signCode = number.sign ∧
        magnitudeBytes = number.numeratorMagnitudeBytes ∧
        denominatorBytes' = number.denominatorBytes := by
  constructor
  · intro accepted
    unfold fromCanonicalBytes fromCanonicalBytesWithProfile at accepted
    split at accepted
    · cases accepted
    rename_i magnitudeMinimal
    split at accepted
    · cases accepted
    rename_i denominatorMinimal
    rw [not_or] at denominatorMinimal
    dsimp only at accepted
    split at accepted
    · cases accepted
    split at accepted
    · rename_i signZero
      split at accepted
      · cases accepted
      rename_i zeroForm
      obtain ⟨rfl⟩ := Except.ok.inj accepted
      simp only [not_or, not_not] at zeroForm
      obtain ⟨magnitudeEmpty, denominatorOne⟩ := zeroForm
      refine ⟨?_, signZero, magnitudeEmpty, ?_⟩
      · simp [WithinProfile, componentBits, zero, ExactNumberSemanticProfileV1.default,
          maxNumberComponentBits]
      · exact (toBytes_eq_iff.mpr ⟨denominatorMinimal.2, denominatorOne⟩).symm
    · rename_i signNonzero
      split at accepted
      · cases accepted
      rename_i magnitudeNonzero
      rw [not_or] at magnitudeNonzero
      split at accepted
      · rename_i normalized
        split at accepted
        · rename_i profileOk
          obtain ⟨rfl⟩ := Except.ok.inj accepted
          refine ⟨checkProfile_eq_ok_iff.mp profileOk, ?_, ?_, ?_⟩
          · exact (sign_mk_signedMagnitude signNonzero magnitudeNonzero.2 _ _).symm
          · rw [numeratorMagnitudeBytes_eq_toBytes]
            simp [toBytes_ofBytes magnitudeMinimal]
          · simp [denominatorBytes, toBytes_ofBytes denominatorMinimal.2]
        · cases accepted
      · cases accepted
  · rintro ⟨within, rfl, rfl, rfl⟩
    rw [fromCanonicalBytes, fromCanonicalBytesWithProfile_encoding,
      checkProfile_eq_ok_iff.mpr within]
    simp

/-- Comparison by cross multiplication. -/
def cmp (left right : ExactNumber) : Ordering :=
  compare (left.numerator * right.denominator) (right.numerator * left.denominator)

instance : Ord ExactNumber :=
  ⟨cmp⟩

/-- The rational number a canonical representation stands for. -/
def toRat (number : ExactNumber) : ℚ where
  num := number.numerator
  den := number.denominator
  den_nz := number.denominator_pos.ne'
  reduced := number.reduced

theorem toRat_injective : Function.Injective toRat := by
  intro left right same
  exact ExactNumber.ext (congrArg Rat.num same) (congrArg Rat.den same)

/-- Cross multiplication is the order of the rationals. -/
theorem compare_eq_compare_toRat (left right : ExactNumber) :
    compare left right = compare left.toRat right.toRat := by
  have below : left.numerator * right.denominator < right.numerator * left.denominator ↔
      left.toRat < right.toRat := (Rat.lt_iff left.toRat right.toRat).symm
  have above : right.numerator * left.denominator < left.numerator * right.denominator ↔
      right.toRat < left.toRat := (Rat.lt_iff right.toRat left.toRat).symm
  change compare (left.numerator * right.denominator) (right.numerator * left.denominator) = _
  rcases lt_trichotomy left.toRat right.toRat with smaller | same | larger
  · rw [compare_lt_iff_lt.mpr smaller, compare_lt_iff_lt.mpr (below.mpr smaller)]
  · rw [compare_eq_iff_eq.mpr same]
    apply compare_eq_iff_eq.mpr
    rw [toRat_injective same]
  · rw [compare_gt_iff_gt.mpr larger, compare_gt_iff_gt.mpr (above.mpr larger)]

instance : Std.TransOrd ExactNumber :=
  Order.transOrd_of_compare_eq toRat compare_eq_compare_toRat

instance : Std.LawfulEqOrd ExactNumber :=
  Order.lawfulEqOrd_of_compare_eq toRat toRat_injective compare_eq_compare_toRat

end ExactNumber

end BoonCircuit.Data
