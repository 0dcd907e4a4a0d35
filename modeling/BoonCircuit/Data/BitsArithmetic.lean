import BoonCircuit.Data.BitsLaws

/-!
# Arithmetic and conversions of bit sequences

Operations on two sequences of one width, and conversions to numbers and bytes.
Wrapping arithmetic is vector arithmetic.  Widening and checked arithmetic is stated
on the numbers that the sequences spell: the result spells the exact sum or
difference, and a failure is reported exactly when that does not fit the width.
-/

namespace BoonCircuit.Data

open Lib Checks ExactNumber BigEndian Int

namespace Bits

/-- The number that the sequence spells under an interpretation. -/
def readAs (bits : Bits) (interpretation : BitsInterpretation) : Int :=
  interpretation.read bits.vector

variable {width : Nat} {bits : Bits} {interpretation : BitsInterpretation} {operation : String}
  {value : Int} {bytes : List UInt8} {α : Type} {next : Unit → Except BitsError α}

theorem readAs_unsigned (bits : Bits) : bits.readAs .unsigned = (bits.toNat : Int) :=
  congrArg Nat.cast bits.toNat_vector

theorem readAs_twosComplement (bits : Bits) : bits.readAs .twosComplement = bits.toSignedBigint :=
  bits.toSignedBigint_eq.symm

theorem Represents.readAs_eq {vector : BitVec width}
    (is : bits.Represents vector) (interpretation : BitsInterpretation) :
    bits.readAs interpretation = interpretation.read vector := by
  obtain ⟨rfl, toNatEq⟩ := is
  have same : bits.vector = vector := by
    apply BitVec.eq_of_toNat_eq
    rw [toNat_vector, toNatEq]
  rw [readAs, same]

theorem exists_fromBiguint_readAs {value : Nat} (valid : ValidWidth width)
    (fits : value < 2 ^ width) :
    ∃ bits, fromBiguint width value = .ok bits ∧ bits.width = width ∧
      bits.readAs .unsigned = value := by
  obtain ⟨bits, built⟩ := exists_fromBiguint valid fits
  obtain ⟨widthEq, toNatEq⟩ := fromBiguint_eq_ok_iff.mp built
  exact ⟨bits, built, widthEq, by rw [readAs_unsigned, toNatEq]⟩

theorem exists_fromBigintTwosComplement_readAs (valid : ValidWidth width)
    (fits : signedFits width value = true) :
    ∃ bits, fromBigintTwosComplement width value = .ok bits ∧ bits.width = width ∧
      bits.readAs .twosComplement = value := by
  obtain ⟨bits, is⟩ := exists_represents valid (BitVec.ofInt width value)
  obtain ⟨widthPos, low, high⟩ := signedFits_iff.mp fits
  refine ⟨bits, fromBigintTwosComplement_eq_ok_iff.mpr ⟨fits, is⟩, is.width_eq, ?_⟩
  rw [is.readAs_eq .twosComplement]
  exact BitVec.toInt_ofInt_eq_self widthPos low high

theorem fits_unsigned_iff {value : Nat} :
    BitsInterpretation.unsigned.Fits width value ↔ value < 2 ^ width := by
  simp only [BitsInterpretation.Fits, natCast_nonneg, true_and]
  exact_mod_cast Iff.rfl

theorem sameWidth_eq_ok_iff {left right : Bits} {done : Unit} :
    left.sameWidth right operation = .ok done ↔ left.width = right.width := by
  rw [sameWidth, reject_eq_ok_iff, not_not]

theorem sameWidth_bind_rejects {left right : Bits}
    (different : left.width ≠ right.width) : Rejects (left.sameWidth right operation >>= next) := by
  apply rejects_of_forall_ne
  intro result accepted
  rw [check_bind_eq_ok_iff, sameWidth_eq_ok_iff] at accepted
  exact different accepted.1

theorem sameWidth_bind {left right : Bits}
    (same : left.width = right.width) : (left.sameWidth right operation >>= next) = next () := by
  rw [sameWidth_eq_ok_iff.mpr same]
  rfl

section SameWidth

variable {left right : Bits} {other : BitVec left.width} (is : right.Represents other)

include is in
theorem bitwise_returns {combine : Nat → Nat → Nat}
    {vector : BitVec left.width} (same : combine left.vector.toNat other.toNat = vector.toNat) :
    Returns (bitwise operation combine left right) vector := by
  rw [bitwise, sameWidth_bind is.width_eq.symm]
  apply returns_fromBiguint left.validWidth
  rw [is.toNat_eq, ← toNat_vector left, same]

include is in
theorem addOrWrap_returns : Returns (left.addOrWrap right) (left.vector + other) := by
  rw [addOrWrap, sameWidth_bind is.width_eq.symm]
  apply returns_fromBiguint left.validWidth
  rw [and_bitMask, BitVec.toNat_add, is.toNat_eq, toNat_vector]

theorem natAbs_wrapped {first second modulus : Nat} (firstLt : first < modulus)
    (secondLt : second < modulus) :
    ((((first : Int) - second).tmod modulus + modulus).tmod modulus).natAbs =
      (modulus - second + first) % modulus := by
  have small : ((first : Int) - second).tmod modulus = first - second := by
    rcases le_total second first with ordered | ordered
    · rw [tmod_eq_emod_of_nonneg (by omega)]
      exact emod_eq_of_lt (by omega) (by omega)
    · rw [← neg_sub, neg_tmod, tmod_eq_emod_of_nonneg (by omega)]
      exact congrArg _ (emod_eq_of_lt (by omega) (by omega))
  have sum : (first : Int) - second + modulus = (modulus - second + first : Nat) := by omega
  rw [small, sum, tmod_eq_emod_of_nonneg (natCast_nonneg _), ← natCast_mod, natAbs_natCast]

include is in
theorem subtractOrWrap_returns : Returns (left.subtractOrWrap right) (left.vector - other) := by
  rw [subtractOrWrap, sameWidth_bind is.width_eq.symm]
  apply returns_fromBiguint left.validWidth
  have leftLt := left.vector.isLt
  have rightLt := other.isLt
  rw [BitVec.toNat_sub, ← natAbs_wrapped leftLt rightLt, is.toNat_eq, toNat_vector,
    Nat.one_shiftLeft]

include is in
theorem compare_eq (interpretation : BitsInterpretation) :
    left.compare right interpretation =
      .ok (compare (left.readAs interpretation) (interpretation.read other)) := by
  unfold Bits.compare
  rw [sameWidth_bind is.width_eq.symm, pure_eq_ok_iff, ← is.readAs_eq]
  cases interpretation with
  | unsigned =>
    rw [readAs_unsigned, readAs_unsigned]
    simp [compare_eq_ite_lt, Nat.compare_eq_ite_lt]
  | twosComplement => rw [readAs_twosComplement, readAs_twosComplement]

/-- Signed fitting is the range check of two's complement. -/
theorem signedFits_eq_true_iff (bits : Bits) :
    signedFits bits.width value = true ↔
      BitsInterpretation.twosComplement.Fits bits.width value := by
  simp only [signedFits_iff, bits.width_pos, true_and, BitsInterpretation.Fits]

include is in
theorem addWidening_exact (interpretation : BitsInterpretation)
    (fits : left.width + 1 ≤ maxBitsWidth) :
    ∃ result, left.addWidening right interpretation = .ok result ∧
      result.width = left.width + 1 ∧
      result.readAs interpretation = left.readAs interpretation + interpretation.read other := by
  have small : maxBitsWidth < 2 ^ 32 := by decide
  have valid : ValidWidth (left.width + 1) := ⟨Nat.succ_pos _, fits⟩
  have widened : checkedAddWidth left.width 1 "Bits/add_widening width overflowed" =
      .ok (left.width + 1) :=
    checkedAddWidth_eq_ok_iff.mpr ⟨by omega, rfl⟩
  have checked : validateWidth (left.width + 1) = .ok () := validateWidth_eq_ok_iff.mpr valid
  unfold addWidening
  rw [sameWidth_bind is.width_eq.symm, widened]
  simp only [bind, Except.bind, checked]
  cases interpretation with
  | unsigned =>
    have double : 2 ^ (left.width + 1) = 2 ^ left.width + 2 ^ left.width := by ring
    have leftLt := left.toNat_lt
    have rightLt := other.isLt
    rw [← is.readAs_eq, readAs_unsigned, readAs_unsigned, ← natCast_add]
    apply exists_fromBiguint_readAs valid
    rw [is.toNat_eq]
    omega
  | twosComplement =>
    have double : (2 : Int) ^ left.width = 2 ^ (left.width - 1) + 2 ^ (left.width - 1) := by
      rw [← two_mul, ← pow_succ', Nat.sub_add_cancel left.width_pos]
    have leftLow := left.vector.le_toInt
    have leftHigh := @BitVec.toInt_lt _ left.vector
    have rightLow := other.le_toInt
    have rightHigh := @BitVec.toInt_lt _ other
    rw [← readAs_twosComplement, ← readAs_twosComplement, is.readAs_eq]
    apply exists_fromBigintTwosComplement_readAs valid
    rw [signedFits_iff, Nat.add_sub_cancel]
    change _ ∧ _ ≤ left.vector.toInt + other.toInt ∧ left.vector.toInt + other.toInt < _
    omega

theorem addWidening_rejects (interpretation : BitsInterpretation)
    (tooWide : maxBitsWidth < left.width + 1) :
    Rejects (left.addWidening right interpretation) := by
  apply rejects_of_forall_ne
  intro result accepted
  simp only [addWidening, bind_eq_ok_iff, checkedAddWidth_eq_ok_iff,
    validateWidth_eq_ok_iff] at accepted
  obtain ⟨_, _, _, ⟨_, rfl⟩, _, valid, _⟩ := accepted
  exact absurd valid.2 (Nat.not_le.mpr tooWide)

/-- Checked arithmetic reports the exact result or a failure. -/
def Reports (outcome : Except BitsError (Except BitsArithmeticFailure Bits)) (width : Nat)
    (interpretation : BitsInterpretation) (failure : BitsArithmeticFailure) (value : Int) : Prop :=
  (interpretation.Fits width value → ∃ result, outcome = .ok (.ok result) ∧
      result.width = width ∧ result.readAs interpretation = value) ∧
    (¬ interpretation.Fits width value → outcome = .ok (.error failure))

theorem reports_ite {refused : Prop} [Decidable refused] {build : Except BitsError Bits}
    {failure : BitsArithmeticFailure} (refusedIff : refused ↔ ¬ interpretation.Fits width value)
    (built : interpretation.Fits width value → ∃ result, build = .ok result ∧
      result.width = width ∧ result.readAs interpretation = value) :
    Reports (if refused then pure (.error failure) else Except.ok <$> build) width interpretation
      failure value := by
  constructor
  · intro fits
    obtain ⟨result, build_eq, spelled⟩ := built fits
    refine ⟨result, ?_, spelled⟩
    rw [if_neg fun refuse => refusedIff.mp refuse fits, build_eq]
    rfl
  · intro outside
    rw [if_pos (refusedIff.mpr outside)]
    rfl

theorem reports_signed (bits : Bits) (value : Int) :
    Reports
      (if signedFits bits.width value = false then pure (.error .overflow)
        else Except.ok <$> fromBigintTwosComplement bits.width value)
      bits.width .twosComplement .overflow value := by
  apply reports_ite
  · rw [← bits.signedFits_eq_true_iff, Bool.not_eq_true]
  · intro fits
    exact exists_fromBigintTwosComplement_readAs bits.validWidth
      (bits.signedFits_eq_true_iff.mpr fits)

include is in
theorem tryAdd_reports (interpretation : BitsInterpretation) :
    Reports (left.tryAdd right interpretation) left.width interpretation .overflow
      (left.readAs interpretation + interpretation.read other) := by
  unfold tryAdd
  rw [sameWidth_bind is.width_eq.symm, ← is.readAs_eq]
  cases interpretation with
  | unsigned =>
    rw [readAs_unsigned, readAs_unsigned, ← natCast_add]
    apply reports_ite
    · rw [fits_unsigned_iff, ← Nat.size_le, Nat.not_le]
    · intro fits
      exact exists_fromBiguint_readAs left.validWidth (fits_unsigned_iff.mp fits)
  | twosComplement =>
    rw [readAs_twosComplement, readAs_twosComplement]
    exact left.reports_signed _

/-- The failure that checked subtraction reports. -/
def subtractFailure : BitsInterpretation → BitsArithmeticFailure
  | .unsigned => .underflow
  | .twosComplement => .overflow

include is in
theorem trySubtract_reports (interpretation : BitsInterpretation) :
    Reports (left.trySubtract right interpretation) left.width interpretation
      (subtractFailure interpretation)
      (left.readAs interpretation - interpretation.read other) := by
  unfold trySubtract
  rw [sameWidth_bind is.width_eq.symm, ← is.readAs_eq]
  cases interpretation with
  | unsigned =>
    have leftLt := left.toNat_lt
    rw [readAs_unsigned, readAs_unsigned]
    by_cases borrow : left.toNat < right.toNat
    · apply reports_ite
      · refine iff_of_true borrow fun fits => ?_
        have positive := fits.1
        omega
      · intro fits
        have positive := fits.1
        omega
    · rw [← ofNat_sub (Nat.not_lt.mp borrow)]
      have small : left.toNat - right.toNat < 2 ^ left.width := by omega
      apply reports_ite
      · exact iff_of_false borrow (not_not.mpr (fits_unsigned_iff.mpr small))
      · exact fun _ => exists_fromBiguint_readAs left.validWidth small
  | twosComplement =>
    rw [readAs_twosComplement, readAs_twosComplement]
    exact left.reports_signed _

end SameWidth

/-- Every number that a sequence spells is inside the default profile. -/
theorem toNumber_eq (bits : Bits) (interpretation : BitsInterpretation) :
    bits.toNumber interpretation = .ok (ofInt (bits.readAs interpretation)) := by
  have computed : bits.toNumber interpretation =
      (fromRatio (bits.readAs interpretation) 1).mapError
        fun fault => ⟨fault.message⟩ := by
    cases interpretation with
    | unsigned => rw [readAs_unsigned]; rfl
    | twosComplement => rw [readAs_twosComplement]; rfl
  have bound : (bits.readAs interpretation).natAbs < 2 ^ bits.width := by
    cases interpretation with
    | unsigned =>
      exact bits.toNat_lt
    | twosComplement =>
      change bits.vector.toInt.natAbs < _
      have low := bits.vector.le_toInt
      have high := @BitVec.toInt_lt _ bits.vector
      have half : (2 : Int) ^ (bits.width - 1) < 2 ^ bits.width :=
        pow_lt_pow_right₀ (by norm_num) (Nat.sub_lt bits.width_pos Nat.one_pos)
      have modulus : ((2 ^ bits.width : Nat) : Int) = 2 ^ bits.width := by
        rfl
      omega
  have within : (ofInt (bits.readAs interpretation)).WithinProfile .default := by
    constructor
    · exact (Nat.size_le.mpr bound).trans bits.width_le
    · exact withinProfile_zero.2
  rw [computed, mapError_eq_ok_iff]
  exact fromRatioWithProfile_one within

/-- A number is converted exactly when it is whole, the width is valid and it fits. -/
theorem fromNumber_eq_ok_iff {value : ExactNumber} :
    fromNumber width value interpretation = .ok bits ↔
      value.denominator = 1 ∧ bits.width = width ∧
        bits.readAs interpretation = value.numerator := by
  unfold fromNumber
  rw [check_bind_eq_ok_iff, reject_eq_ok_iff, Bool.not_eq_false]
  have wholeIff : value.isWhole = true ↔ value.denominator = 1 := decide_eq_true_iff
  rw [wholeIff]
  apply and_congr_right
  intro _
  cases interpretation with
  | unsigned =>
    rw [check_bind_eq_ok_iff, reject_eq_ok_iff, fromBiguint_eq_ok_iff, readAs_unsigned]
    omega
  | twosComplement =>
    rw [check_bind_eq_ok_iff, reject_eq_ok_iff, Bool.not_eq_false,
      fromBigintTwosComplement_eq_ok_iff]
    constructor
    · rintro ⟨_, fits, is⟩
      obtain ⟨widthPos, low, high⟩ := signedFits_iff.mp fits
      refine ⟨is.width_eq, ?_⟩
      rw [is.readAs_eq .twosComplement]
      exact BitVec.toInt_ofInt_eq_self widthPos low high
    · rintro ⟨rfl, spelled⟩
      have spelled' : bits.vector.toInt = value.numerator := spelled
      have fits := signedFits_toInt bits.width_pos bits.vector
      rw [spelled'] at fits
      refine ⟨fits, fits, ?_⟩
      rw [← spelled', BitVec.ofInt_toInt]
      exact bits.represents_vector

theorem exists_readAs (valid : ValidWidth width) (fits : interpretation.Fits width value) :
    ∃ bits : Bits, bits.width = width ∧ bits.readAs interpretation = value := by
  cases interpretation with
  | unsigned =>
    obtain ⟨_, rfl⟩ := eq_ofNat_of_zero_le fits.1
    obtain ⟨bits, _, widthEq, spelled⟩ :=
      exists_fromBiguint_readAs valid (fits_unsigned_iff.mp fits)
    exact ⟨bits, widthEq, spelled⟩
  | twosComplement =>
    obtain ⟨bits, _, widthEq, spelled⟩ := exists_fromBigintTwosComplement_readAs valid
      (signedFits_iff.mpr ⟨valid.1, fits⟩)
    exact ⟨bits, widthEq, spelled⟩

theorem fits_readAs (bits : Bits) (interpretation : BitsInterpretation) :
    interpretation.Fits bits.width (bits.readAs interpretation) := by
  cases interpretation with
  | unsigned => exact fits_unsigned_iff.mpr bits.vector.isLt
  | twosComplement => exact ⟨bits.vector.le_toInt, BitVec.toInt_lt⟩

/-- Bytes in the given order, most significant first. -/
def arrange (byteOrder : BitsByteOrder) (bytes : List UInt8) : List UInt8 :=
  match byteOrder with
  | .bigEndian => bytes
  | .littleEndian => bytes.reverse

theorem length_arrange (byteOrder : BitsByteOrder) (bytes : List UInt8) :
    (arrange byteOrder bytes).length = bytes.length := by
  cases byteOrder with
  | bigEndian => rfl
  | littleEndian => exact List.length_reverse

/-- The bytes of an aligned sequence in the given order. -/
def BytesOf (bits : Bits) (byteOrder : BitsByteOrder) (bytes : List UInt8) : Prop :=
  bytes.length * 8 = bits.width ∧ ofBytes (arrange byteOrder bytes) = bits.toNat

theorem exists_bytesOf (byteOrder : BitsByteOrder) (valid : ValidWidth (bytes.length * 8)) :
    ∃ bits : Bits, bits.width = bytes.length * 8 ∧ bits.BytesOf byteOrder bytes := by
  have length : (arrange byteOrder bytes).length = byteLen (bytes.length * 8) := by
    rw [length_arrange, byteLen]
    omega
  have fits : ofBytes (arrange byteOrder bytes) < 2 ^ (bytes.length * 8) := by
    have base : (256 : Nat) = 2 ^ 8 := by norm_num
    have capacity := ofBytes_lt (arrange byteOrder bytes)
    rwa [length_arrange, base, ← pow_mul, Nat.mul_comm] at capacity
  obtain ⟨bits, _, widthEq, toNatEq⟩ := exists_fromCanonicalBytes valid length fits
  exact ⟨bits, widthEq, widthEq.symm, toNatEq.symm⟩

theorem toBytes_eq (aligned : bits.width % 8 = 0) (byteOrder : BitsByteOrder) :
    ∃ bytes, bits.toBytes byteOrder = .ok bytes ∧ bits.BytesOf byteOrder bytes := by
  refine ⟨arrange byteOrder bits.bytes, ?_, ?_, ?_⟩
  · unfold toBytes
    rw [reject, if_neg (by simp [aligned])]
    cases byteOrder <;> rfl
  · rw [length_arrange, bits.length_bytes, byteLen]
    omega
  · cases byteOrder with
    | bigEndian => rfl
    | littleEndian => exact congrArg ofBytes bits.bytes.reverse_reverse

theorem fromBytes_eq_ok_iff {byteOrder : BitsByteOrder} :
    fromBytes width bytes byteOrder = .ok bits ↔
      width % 8 = 0 ∧ bits.width = width ∧ bits.BytesOf byteOrder bytes := by
  simp only [fromBytes, check_bind_eq_ok_iff, validateWidth_eq_ok_iff,
    reject_eq_ok_iff, not_not, fromCanonicalBytes_eq_ok_iff]
  have arranged : (if byteOrder = .littleEndian then bytes.reverse else bytes) =
      arrange byteOrder bytes := by
    cases byteOrder <;> rfl
  have length := length_arrange byteOrder bytes
  rw [arranged]
  constructor
  · rintro ⟨_, aligned, rfl, arranged⟩
    refine ⟨aligned, rfl, ?_, congrArg ofBytes arranged⟩
    rw [arranged, bits.length_bytes, byteLen] at length
    omega
  · rintro ⟨aligned, rfl, _, value⟩
    refine ⟨bits.validWidth, aligned, rfl, ofBytes_injOn ?_ value⟩
    rw [bits.length_bytes, byteLen]
    omega

/-- The laws of the operations on one sequence. -/
structure UnaryLaws (bits : Bits) : Prop where
  bit : ∀ position direction,
    (bits.Position position →
      bits.bit position direction = .ok (direction.read bits.vector position)) ∧
    (¬ bits.Position position → Rejects (bits.bit position direction))
  withBit : ∀ position direction value,
    Answers (bits.withBit position direction value) (bits.Position position)
      (replaceBits bits.vector (direction.index bits.width position) (BitVec.ofBool value))
  slice : ∀ first count, Answers (bits.slice first count) (bits.Range first count)
    (bits.vector.extractLsb' (bits.width - (first - 1 + count)) count)
  bitNot : Returns bits.bitNot (~~~bits.vector)
  logicalShiftLeft : ∀ amount, Returns (bits.logicalShiftLeft amount) (bits.vector <<< amount)
  logicalShiftRight : ∀ amount, Returns (bits.logicalShiftRight amount) (bits.vector >>> amount)
  arithmeticShiftRight : ∀ amount,
    Returns (bits.arithmeticShiftRight amount) (bits.vector.sshiftRight amount)
  rotateLeft : ∀ amount, Returns (bits.rotateLeft amount) (bits.vector.rotateLeft amount)
  rotateRight : ∀ amount, Returns (bits.rotateRight amount) (bits.vector.rotateRight amount)
  zeroExtend : ∀ newWidth, Answers (bits.zeroExtend newWidth)
    (bits.width ≤ newWidth ∧ newWidth ≤ maxBitsWidth) (bits.vector.setWidth newWidth)
  signExtend : ∀ newWidth, Answers (bits.signExtend newWidth)
    (bits.width ≤ newWidth ∧ newWidth ≤ maxBitsWidth) (bits.vector.signExtend newWidth)
  truncate : ∀ newWidth, Answers (bits.truncate newWidth)
    (1 ≤ newWidth ∧ newWidth ≤ bits.width) (bits.vector.setWidth newWidth)

/-- The laws of the operations on two sequences of one width; the second is given as a
vector of that width. -/
structure SameWidthLaws (left right : Bits) (other : BitVec left.width) : Prop where
  bitAnd : Returns (left.bitAnd right) (left.vector &&& other)
  bitOr : Returns (left.bitOr right) (left.vector ||| other)
  bitXor : Returns (left.bitXor right) (left.vector ^^^ other)
  addOrWrap : Returns (left.addOrWrap right) (left.vector + other)
  subtractOrWrap : Returns (left.subtractOrWrap right) (left.vector - other)
  compare : ∀ interpretation, left.compare right interpretation =
    .ok (compare (left.readAs interpretation) (interpretation.read other))
  addWidening : ∀ interpretation,
    (left.width + 1 ≤ maxBitsWidth →
      ∃ result, left.addWidening right interpretation = .ok result ∧
        result.width = left.width + 1 ∧ result.readAs interpretation =
          left.readAs interpretation + interpretation.read other) ∧
    (maxBitsWidth < left.width + 1 → Rejects (left.addWidening right interpretation))
  tryAdd : ∀ interpretation,
    Reports (left.tryAdd right interpretation) left.width interpretation .overflow
      (left.readAs interpretation + interpretation.read other)
  trySubtract : ∀ interpretation,
    Reports (left.trySubtract right interpretation) left.width interpretation
      (subtractFailure interpretation) (left.readAs interpretation - interpretation.read other)

/-- Every operation on sequences of one width reports an error on different widths. -/
structure RejectsDifferent (left right : Bits) : Prop where
  bitAnd : Rejects (left.bitAnd right)
  bitOr : Rejects (left.bitOr right)
  bitXor : Rejects (left.bitXor right)
  addOrWrap : Rejects (left.addOrWrap right)
  subtractOrWrap : Rejects (left.subtractOrWrap right)
  compare : ∀ interpretation, Rejects (left.compare right interpretation)
  addWidening : ∀ interpretation, Rejects (left.addWidening right interpretation)
  tryAdd : ∀ interpretation, Rejects (left.tryAdd right interpretation)
  trySubtract : ∀ interpretation, Rejects (left.trySubtract right interpretation)

/-- The laws of the operations on two sequences. -/
structure BinaryLaws (left right : Bits) : Prop where
  withSlice : ∀ first, Answers (left.withSlice first right) (left.Range first right.width)
    (replaceBits left.vector (left.width - (first - 1 + right.width)) right.vector)
  concat : Answers (left.concat right) (left.width + right.width ≤ maxBitsWidth)
    (left.vector ++ right.vector)
  same : ∀ same, SameWidthLaws left right (right.vector.cast same)
  different : left.width ≠ right.width → RejectsDifferent left right

/-- The laws of the conversions to and from numbers and bytes. -/
structure ConversionLaws (bits : Bits) : Prop where
  toNumber : ∀ interpretation,
    bits.toNumber interpretation = .ok (ofInt (bits.readAs interpretation))
  fromNumber : ∀ width value interpretation,
    (ValidWidth width ∧ value.denominator = 1 ∧ interpretation.Fits width value.numerator →
      ∃ result, fromNumber width value interpretation = .ok result ∧ result.width = width ∧
        result.readAs interpretation = value.numerator) ∧
    (¬ (ValidWidth width ∧ value.denominator = 1 ∧ interpretation.Fits width value.numerator) →
      Rejects (fromNumber width value interpretation))
  numberRoundTrip : ∀ interpretation,
    (bits.toNumber interpretation >>= fun number =>
      Bits.fromNumber bits.width number interpretation) = .ok bits
  toBytes : ∀ byteOrder,
    (bits.width % 8 = 0 →
      ∃ bytes, bits.toBytes byteOrder = .ok bytes ∧ bits.BytesOf byteOrder bytes) ∧
    (bits.width % 8 ≠ 0 → Rejects (bits.toBytes byteOrder))
  fromBytes : ∀ width bytes byteOrder,
    (ValidWidth width ∧ width = bytes.length * 8 →
      ∃ result, fromBytes width bytes byteOrder = .ok result ∧ result.width = width ∧
        result.BytesOf byteOrder bytes) ∧
    (¬ (ValidWidth width ∧ width = bytes.length * 8) → Rejects (fromBytes width bytes byteOrder))
  bytesRoundTrip : ∀ byteOrder, bits.width % 8 = 0 →
    (bits.toBytes byteOrder >>= fun bytes => Bits.fromBytes bits.width bytes byteOrder) = .ok bits

theorem unaryLaws (bits : Bits) : UnaryLaws bits where
  bit _ direction := ⟨bit_eq direction, bit_rejects direction⟩
  withBit := withBit_answers bits
  slice := slice_answers bits
  bitNot := bitNot_returns bits
  logicalShiftLeft := logicalShiftLeft_returns bits
  logicalShiftRight := logicalShiftRight_returns bits
  arithmeticShiftRight := arithmeticShiftRight_returns bits
  rotateLeft := rotateLeft_returns bits
  rotateRight := rotateRight_returns bits
  zeroExtend := zeroExtend_answers bits
  signExtend := signExtend_answers bits
  truncate := truncate_answers bits

theorem sameWidthLaws {left right : Bits} {other : BitVec left.width}
    (is : right.Represents other) : SameWidthLaws left right other where
  bitAnd := bitwise_returns is (BitVec.toNat_and _ _).symm
  bitOr := bitwise_returns is (BitVec.toNat_or _ _).symm
  bitXor := bitwise_returns is (BitVec.toNat_xor _ _).symm
  addOrWrap := addOrWrap_returns is
  subtractOrWrap := subtractOrWrap_returns is
  compare := compare_eq is
  addWidening interpretation :=
    ⟨addWidening_exact is interpretation, addWidening_rejects interpretation⟩
  tryAdd := tryAdd_reports is
  trySubtract := trySubtract_reports is

theorem rejectsDifferent {left right : Bits} (different : left.width ≠ right.width) :
    RejectsDifferent left right where
  bitAnd := sameWidth_bind_rejects different
  bitOr := sameWidth_bind_rejects different
  bitXor := sameWidth_bind_rejects different
  addOrWrap := sameWidth_bind_rejects different
  subtractOrWrap := sameWidth_bind_rejects different
  compare _ := sameWidth_bind_rejects different
  addWidening _ := sameWidth_bind_rejects different
  tryAdd _ := sameWidth_bind_rejects different
  trySubtract _ := sameWidth_bind_rejects different

theorem binaryLaws (left right : Bits) : BinaryLaws left right where
  withSlice first := withSlice_answers left first right
  concat := concat_answers left right
  same same := by
    apply sameWidthLaws
    exact ⟨same, by rw [BitVec.toNat_cast, toNat_vector]⟩
  different := rejectsDifferent

theorem conversionLaws (bits : Bits) : ConversionLaws bits where
  toNumber := toNumber_eq bits
  fromNumber width value interpretation := by
    constructor
    · rintro ⟨valid, whole, fits⟩
      obtain ⟨result, widthEq, spelled⟩ := exists_readAs valid fits
      exact ⟨result, fromNumber_eq_ok_iff.mpr ⟨whole, widthEq, spelled⟩, widthEq, spelled⟩
    · intro invalid
      apply rejects_of_forall_ne
      intro result accepted
      obtain ⟨whole, rfl, spelled⟩ := fromNumber_eq_ok_iff.mp accepted
      exact invalid ⟨result.validWidth, whole, spelled ▸ result.fits_readAs interpretation⟩
  numberRoundTrip interpretation := by
    rw [toNumber_eq]
    change Bits.fromNumber bits.width (ofInt (bits.readAs interpretation)) interpretation = .ok bits
    exact fromNumber_eq_ok_iff.mpr ⟨rfl, rfl, rfl⟩
  toBytes byteOrder := by
    refine ⟨fun aligned => toBytes_eq aligned byteOrder, ?_⟩
    intro unaligned
    apply rejects_of_forall_ne
    intro result accepted
    unfold Bits.toBytes at accepted
    rw [check_bind_eq_ok_iff, reject_eq_ok_iff] at accepted
    exact accepted.1 unaligned
  fromBytes width bytes byteOrder := by
    constructor
    · rintro ⟨valid, rfl⟩
      obtain ⟨result, widthEq, bytesOf⟩ := exists_bytesOf byteOrder valid
      exact ⟨result, fromBytes_eq_ok_iff.mpr ⟨Nat.mul_mod_left _ _, widthEq, bytesOf⟩, widthEq,
        bytesOf⟩
    · intro invalid
      apply rejects_of_forall_ne
      intro result accepted
      obtain ⟨_, rfl, length, _⟩ := fromBytes_eq_ok_iff.mp accepted
      exact invalid ⟨result.validWidth, length.symm⟩
  bytesRoundTrip byteOrder aligned := by
    obtain ⟨bytes, converted, bytesOf⟩ := toBytes_eq aligned byteOrder
    rw [converted]
    exact fromBytes_eq_ok_iff.mpr ⟨aligned, rfl, bytesOf⟩

/-- Every operation on canonical sequences is the corresponding vector operation and fails
exactly on invalid positions, ranges and widths or results that do not fit. -/
theorem operations_exact (left right : Bits) :
    UnaryLaws left ∧ BinaryLaws left right ∧ ConversionLaws left :=
  ⟨unaryLaws left, binaryLaws left right, conversionLaws left⟩

end Bits

end BoonCircuit.Data
