import BoonCircuit.Data.BitsOperations
import Mathlib.Data.BitVec

/-!
# Bit sequences are bit vectors

A canonical bit sequence of width `w` is a `BitVec w`, and its operations are the
operations of bit vectors.  The laws are stated on vectors: an operation returns the
sequence of the resulting vector when its positions, ranges and widths are valid, and
is rejected otherwise.  Arithmetic is stated on the numbers that the bits spell under
an interpretation.
-/

namespace BoonCircuit.Data

open Lib BigEndian Checks List

/-- A width that bit sequences may have. -/
def ValidWidth (width : Nat) : Prop :=
  0 < width ∧ width ≤ maxBitsWidth

@[simp]
theorem validateWidth_eq_ok_iff {width : Nat} {done : Unit} :
    validateWidth width = .ok done ↔ ValidWidth width := by
  rw [validateWidth, check_bind_eq_ok_iff, reject_eq_ok_iff,
    reject_eq_ok_iff, ValidWidth, Nat.pos_iff_ne_zero, Nat.not_lt]

theorem bitMask_eq (width : Nat) : bitMask width = 2 ^ width - 1 := by
  rw [bitMask, Nat.one_shiftLeft]

theorem and_bitMask (value width : Nat) : value &&& bitMask width = value % 2 ^ width := by
  rw [bitMask_eq, Nat.and_two_pow_sub_one_eq_mod]

theorem signedFits_iff {width : Nat} {value : Int} :
    signedFits width value = true ↔
      0 < width ∧ -2 ^ (width - 1) ≤ value ∧ value < 2 ^ (width - 1) := by
  simp only [signedFits, Nat.one_shiftLeft, Bool.and_eq_true, decide_eq_true_eq, and_assoc,
    Nat.pos_iff_ne_zero]
  rfl

theorem testBit_setBit (raw bit index : Nat) (value : Bool) :
    (setBit raw bit value).testBit index = if index = bit then value else raw.testBit index := by
  unfold setBit
  by_cases here : index = bit
  · subst here
    rw [if_pos rfl]
    split
    · assumption
    · rename_i changed
      rw [Nat.testBit_xor]
      revert changed
      cases raw.testBit index <;> cases value <;> simp
  · rw [if_neg here]
    split
    · rfl
    · rw [Nat.testBit_xor, Nat.one_shiftLeft, Nat.testBit_two_pow_of_ne (Ne.symm here)]
      simp

namespace Bits

/-- The bits as a vector. -/
def vector (bits : Bits) : BitVec bits.width :=
  BitVec.ofNatLT bits.toNat bits.toNat_lt

/-- The sequence holds the bits of a vector. -/
structure Represents {width : Nat} (bits : Bits) (vector : BitVec width) : Prop where
  width_eq : bits.width = width
  toNat_eq : bits.toNat = vector.toNat

theorem represents_vector (bits : Bits) : bits.Represents bits.vector :=
  ⟨rfl, (BitVec.toNat_ofNatLT _ _).symm⟩

variable {width value : Nat} {vector : BitVec width} {bits : Bits} {outcome : Except BitsError Bits}

theorem toNat_vector (bits : Bits) : bits.vector.toNat = bits.toNat :=
  BitVec.toNat_ofNatLT _ _

theorem toSignedBigint_eq (bits : Bits) : bits.toSignedBigint = bits.vector.toInt := by
  rw [toSignedBigint, bitFromLeft, BitVec.toInt_eq_msb_cond, BitVec.msb_eq_getLsbD_last,
    ← BitVec.testBit_toNat, toNat_vector, Nat.one_shiftLeft]

theorem validWidth (bits : Bits) : ValidWidth bits.width :=
  ⟨bits.width_pos, bits.width_le⟩

theorem exists_fromCanonicalBytes {bytes : List UInt8} (valid : ValidWidth width)
    (length : bytes.length = byteLen width) (fits : ofBytes bytes < 2 ^ width) :
    ∃ bits, fromCanonicalBytes width bytes = .ok bits ∧ bits.width = width ∧
      bits.toNat = ofBytes bytes := by
  have clear := (unusedHighBitsSet_eq_false_iff valid.1 length).mpr fits
  exact ⟨⟨width, bytes, valid.1, valid.2, length, clear⟩,
    fromCanonicalBytes_eq_ok_iff.mpr ⟨rfl, rfl⟩, rfl, rfl⟩

theorem ofBytes_replicate_append (count : Nat) (bytes : List UInt8) :
    ofBytes (List.replicate count 0 ++ bytes) = ofBytes bytes := by
  induction count with
  | zero => rfl
  | succ count ih =>
    rw [replicate_succ, cons_append, ofBytes_cons, ih]
    simp

theorem ofBytes_bigIntegerBytes (value : Nat) : ofBytes (bigIntegerBytes value) = value := by
  unfold bigIntegerBytes
  split
  · rename_i isZero
    rw [isZero]
    rfl
  · exact ofBytes_toBytes value

theorem length_bigIntegerBytes_le (widthPos : 0 < width)
    (fits : value < 2 ^ width) : (bigIntegerBytes value).length ≤ byteLen width := by
  unfold bigIntegerBytes
  split
  · rw [length_singleton, byteLen]
    omega
  · have base : (256 : Nat) = 2 ^ 8 := by norm_num
    rw [length_toBytes_le_iff, base, ← pow_mul]
    have enough : width ≤ 8 * byteLen width := by
      rw [byteLen]
      omega
    exact fits.trans_le (Nat.pow_le_pow_right (by norm_num) enough)

theorem fromBiguint_eq_ok_iff :
    fromBiguint width value = .ok bits ↔ bits.width = width ∧ bits.toNat = value := by
  simp only [fromBiguint, check_bind_eq_ok_iff, validateWidth_eq_ok_iff,
    reject_eq_ok_iff, Nat.not_lt, Nat.size_le, fromCanonicalBytes_eq_ok_iff]
  constructor
  · rintro ⟨_, _, _, widthEq, bytesEq⟩
    refine ⟨widthEq.symm, ?_⟩
    rw [toNat, ← bytesEq, ofBytes_replicate_append, ofBytes_bigIntegerBytes]
  · rintro ⟨rfl, rfl⟩
    have short := length_bigIntegerBytes_le bits.width_pos bits.toNat_lt
    refine ⟨bits.validWidth, bits.toNat_lt, short, rfl, ?_⟩
    apply ofBytes_injOn
    · rw [length_append, length_replicate, bits.length_bytes]
      omega
    · rw [ofBytes_replicate_append, ofBytes_bigIntegerBytes, toNat]

theorem exists_fromBiguint (valid : ValidWidth width)
    (fits : value < 2 ^ width) : ∃ bits, fromBiguint width value = .ok bits := by
  have short := length_bigIntegerBytes_le valid.1 fits
  have length : (replicate (byteLen width - (bigIntegerBytes value).length) 0 ++
      bigIntegerBytes value).length = byteLen width := by
    rw [length_append, length_replicate]
    omega
  have padded : ofBytes (replicate (byteLen width - (bigIntegerBytes value).length) 0
      ++ bigIntegerBytes value) < 2 ^ width := by
    rw [ofBytes_replicate_append, ofBytes_bigIntegerBytes]
    exact fits
  obtain ⟨bits, accepted, _⟩ := exists_fromCanonicalBytes valid length padded
  refine ⟨bits, ?_⟩
  simp only [fromBiguint, check_bind_eq_ok_iff, validateWidth_eq_ok_iff,
    reject_eq_ok_iff, Nat.not_lt, Nat.size_le]
  exact ⟨valid, fits, short, accepted⟩

theorem exists_represents (valid : ValidWidth width) (vector : BitVec width) :
    ∃ bits : Bits, bits.Represents vector := by
  obtain ⟨bits, built⟩ := exists_fromBiguint valid vector.isLt
  obtain ⟨widthEq, toNatEq⟩ := fromBiguint_eq_ok_iff.mp built
  exact ⟨bits, widthEq, toNatEq⟩

theorem fromBiguint_toNat_eq_ok_iff :
    fromBiguint width vector.toNat = .ok bits ↔ bits.Represents vector := by
  rw [fromBiguint_eq_ok_iff]
  exact ⟨fun ⟨widthEq, toNatEq⟩ => ⟨widthEq, toNatEq⟩, fun is => ⟨is.width_eq, is.toNat_eq⟩⟩

theorem natAbs_encoded {value : Int} (fits : signedFits width value = true) :
    (if value < 0 then value + (1 <<< width : Nat) else value).natAbs =
      (BitVec.ofInt width value).toNat := by
  obtain ⟨widthPos, low, _⟩ := signedFits_iff.mp fits
  have double : (2 : Int) ^ width = 2 * 2 ^ (width - 1) := by
    rw [← pow_succ', Nat.sub_add_cancel widthPos]
  have modulus : (((1 <<< width : Nat)) : Int) = 2 ^ width := by
    rw [Nat.one_shiftLeft]
    rfl
  have modulus' : ((2 ^ width : Nat) : Int) = 2 ^ width := by
    rfl
  rw [BitVec.toNat_ofInt, modulus']
  split
  · have wrapped : value % 2 ^ width = value + 2 ^ width := by
      rw [← Int.add_emod_right, Int.emod_eq_of_lt (by omega) (by omega)]
    omega
  · rw [Int.emod_eq_of_lt (by omega) (by omega)]
    omega

theorem fromBigintTwosComplement_eq_ok_iff {value : Int} :
    fromBigintTwosComplement width value = .ok bits ↔
      signedFits width value = true ∧ bits.Represents (BitVec.ofInt width value) := by
  simp only [fromBigintTwosComplement, check_bind_eq_ok_iff, validateWidth_eq_ok_iff,
    reject_eq_ok_iff, Bool.not_eq_false]
  constructor
  · rintro ⟨_, fits, built⟩
    rw [natAbs_encoded fits, fromBiguint_toNat_eq_ok_iff] at built
    exact ⟨fits, built⟩
  · rintro ⟨fits, is⟩
    refine ⟨is.width_eq ▸ bits.validWidth, fits, ?_⟩
    rw [natAbs_encoded fits, fromBiguint_toNat_eq_ok_iff]
    exact is

/-- The operation returns the sequence of a vector. -/
def Returns {width : Nat} (outcome : Except BitsError Bits) (vector : BitVec width) : Prop :=
  ∃ bits, outcome = .ok bits ∧ bits.Represents vector

/-- The operation reports an error. -/
def Rejects {α : Type} (outcome : Except BitsError α) : Prop :=
  ∃ fault, outcome = .error fault

/-- The operation returns the vector on valid arguments and reports an error on others. -/
structure Answers {width : Nat} (outcome : Except BitsError Bits) (valid : Prop)
    (vector : BitVec width) : Prop where
  returns : valid → Returns outcome vector
  rejects : ¬ valid → Rejects outcome

theorem rejects_of_forall_ne {α : Type} {outcome : Except BitsError α}
    (never : ∀ result, outcome ≠ .ok result) : Rejects outcome := by
  cases outcome with
  | error fault => exact ⟨fault, rfl⟩
  | ok result => exact absurd rfl (never result)

theorem answers_of_ok_iff {valid : Prop} (validWidth : valid → ValidWidth width)
    (okIff : ∀ bits, outcome = .ok bits ↔ valid ∧ bits.Represents vector) :
    Answers outcome valid vector := by
  constructor
  · intro isValid
    obtain ⟨bits, is⟩ := exists_represents (validWidth isValid) vector
    exact ⟨bits, (okIff bits).mpr ⟨isValid, is⟩, is⟩
  · intro invalid
    apply rejects_of_forall_ne
    intro bits accepted
    exact invalid ((okIff bits).mp accepted).1

theorem returns_of_ok_iff (validWidth : ValidWidth width)
    (okIff : ∀ bits, outcome = .ok bits ↔ bits.Represents vector) : Returns outcome vector := by
  obtain ⟨bits, is⟩ := exists_represents validWidth vector
  exact ⟨bits, (okIff bits).mpr is, is⟩

theorem returns_fromBiguint (validWidth : ValidWidth width) (same : value = vector.toNat) :
    Returns (fromBiguint width value) vector := by
  apply returns_of_ok_iff validWidth
  intro bits
  rw [same, fromBiguint_toNat_eq_ok_iff]

end Bits

open Lib Checks Nat List

/-- The index, counted from the right, of a one-based position. -/
def BitsDirection.index (direction : BitsDirection) (width position : Nat) : Nat :=
  match direction with
  | .left => width - position
  | .right => position - 1

/-- The bit of a vector at a one-based position. -/
def BitsDirection.read {width : Nat} (direction : BitsDirection) (vector : BitVec width)
    (position : Nat) : Bool :=
  match direction with
  | .left => vector.getMsbD (position - 1)
  | .right => vector.getLsbD (position - 1)

/-- A vector with the bits from an index on replaced by another vector. -/
def replaceBits {width count : Nat} (vector : BitVec width) (start : Nat) (part : BitVec count) :
    BitVec width :=
  (vector &&& ~~~((BitVec.allOnes count).setWidth width <<< start)) |||
    part.setWidth width <<< start

/-- The number that a vector spells under an interpretation. -/
def BitsInterpretation.read {width : Nat} (interpretation : BitsInterpretation)
    (vector : BitVec width) : Int :=
  match interpretation with
  | .unsigned => vector.toNat
  | .twosComplement => vector.toInt

/-- The number fits a width under an interpretation. -/
def BitsInterpretation.Fits (interpretation : BitsInterpretation) (width : Nat) (value : Int) :
    Prop :=
  match interpretation with
  | .unsigned => 0 ≤ value ∧ value < 2 ^ width
  | .twosComplement => -2 ^ (width - 1) ≤ value ∧ value < 2 ^ (width - 1)

namespace Bits

/-- A one-based position inside the width. -/
def Position (bits : Bits) (position : Nat) : Prop :=
  1 ≤ position ∧ position ≤ bits.width

variable {bits : Bits} {position index width : Nat}

theorem checkedPosition_eq_ok_iff :
    checkedPosition bits.width position = .ok index ↔
      bits.Position position ∧ index = position - 1 := by
  have widthLe := bits.width_le
  have small : maxBitsWidth < 2 ^ 32 := by decide
  simp only [checkedPosition, check_bind_eq_ok_iff, reject_eq_ok_iff, pure_eq_ok_iff, Position]
  omega

theorem checkedAddWidth_eq_ok_iff {left right sum : Nat} {message : String} :
    checkedAddWidth left right message = .ok sum ↔ left + right < 2 ^ 32 ∧ left + right = sum := by
  simp only [checkedAddWidth, check_bind_eq_ok_iff, reject_eq_ok_iff, pure_eq_ok_iff, not_le]

theorem bitIndex_eq_ok_iff {direction : BitsDirection} :
    bits.bitIndex position direction = .ok index ↔
      bits.Position position ∧ index = direction.index bits.width position := by
  simp only [bitIndex, bind_eq_ok_iff, checkedPosition_eq_ok_iff, pure_eq_ok_iff,
    and_assoc, exists_and_left, exists_eq_left]
  apply and_congr_right
  rintro ⟨_, _⟩
  cases direction with
  | left =>
    simp only [BitsDirection.index]
    omega
  | right => exact eq_comm

theorem getLsbD_vector (bits : Bits) (index : Nat) :
    bits.vector.getLsbD index = bits.toNat.testBit index := by
  rw [← BitVec.testBit_toNat, toNat_vector]

theorem testBit_eq_false (high : bits.width ≤ index) : bits.toNat.testBit index = false :=
  testBit_lt_two_pow (bits.toNat_lt.trans_le (Nat.pow_le_pow_right (by norm_num) high))

theorem bit_eq (direction : BitsDirection) (inside : bits.Position position) :
    bits.bit position direction = .ok (direction.read bits.vector position) := by
  simp only [bit, bind_eq_ok_iff, bitIndex_eq_ok_iff]
  refine ⟨_, ⟨inside, rfl⟩, ?_⟩
  rw [← getLsbD_vector]
  obtain ⟨_, _⟩ := inside
  cases direction with
  | left =>
    have index : bits.width - 1 - (position - 1) = bits.width - position := by omega
    have within : position - 1 < bits.width := by omega
    simp [BitsDirection.read, BitsDirection.index, BitVec.getMsbD_eq_getLsbD, index, within]
  | right => rfl

theorem bit_rejects (direction : BitsDirection)
    (outside : ¬ bits.Position position) : Rejects (bits.bit position direction) := by
  apply rejects_of_forall_ne
  intro result accepted
  simp only [bit, bind_eq_ok_iff, bitIndex_eq_ok_iff] at accepted
  obtain ⟨_, ⟨inside, _⟩, _⟩ := accepted
  exact outside inside

theorem getLsbD_replaceBits {count : Nat} (vector : BitVec width) (start : Nat)
    (part : BitVec count) (index : Nat) :
    (replaceBits vector start part).getLsbD index =
      (decide (index < width) && if start ≤ index ∧ index < start + count then
        part.getLsbD (index - start) else vector.getLsbD index) := by
  by_cases inside : index < width
  · by_cases replaced : start ≤ index ∧ index < start + count
    · have offset : index - start < count := by omega
      have before : ¬ index < start := by omega
      simp [replaceBits, inside, replaced, offset, before]
    · by_cases before : index < start
      · have outside : ¬ start ≤ index := by omega
        simp [replaceBits, inside, before]
      · have offset : count ≤ index - start := by omega
        have outside : ¬ index < start + count := by omega
        have clear : part.getLsbD (index - start) = false := BitVec.getLsbD_of_ge _ _ offset
        simp [replaceBits, inside, outside, clear, not_lt.mpr offset]
  · simp [replaceBits, inside]

theorem withBit_answers (bits : Bits) (position : Nat) (direction : BitsDirection) (value : Bool) :
    Answers (bits.withBit position direction value) (bits.Position position)
      (replaceBits bits.vector (direction.index bits.width position) (BitVec.ofBool value)) := by
  apply answers_of_ok_iff fun _ => bits.validWidth
  intro result
  have same (inside : bits.Position position) :
      setBit bits.toNat (direction.index bits.width position) value =
        (replaceBits bits.vector (direction.index bits.width position)
          (BitVec.ofBool value)).toNat := by
    apply eq_of_testBit_eq
    intro index
    have indexLt : direction.index bits.width position < bits.width := by
      obtain ⟨_, _⟩ := inside
      cases direction <;> simp only [BitsDirection.index] <;> omega
    rw [testBit_setBit, BitVec.testBit_toNat, getLsbD_replaceBits, getLsbD_vector]
    by_cases here : index = direction.index bits.width position
    · simp [here, indexLt]
    · have apart : ¬ (direction.index bits.width position ≤ index ∧
          index < direction.index bits.width position + 1) := by omega
      rw [if_neg here, if_neg apart]
      by_cases within : index < bits.width
      · simp [within]
      · simp [testBit_eq_false (Nat.le_of_not_lt within)]
  simp only [withBit, bind_eq_ok_iff, bitIndex_eq_ok_iff]
  constructor
  · rintro ⟨_, ⟨inside, rfl⟩, built⟩
    rw [same inside, fromBiguint_toNat_eq_ok_iff] at built
    exact ⟨inside, built⟩
  · rintro ⟨inside, is⟩
    refine ⟨_, ⟨inside, rfl⟩, ?_⟩
    rw [same inside, fromBiguint_toNat_eq_ok_iff]
    exact is

/-- A range of one-based positions inside the width. -/
def Range (bits : Bits) (first count : Nat) : Prop :=
  1 ≤ first ∧ 1 ≤ count ∧ first - 1 + count ≤ bits.width

theorem slice_answers (bits : Bits) (first count : Nat) :
    Answers (bits.slice first count) (bits.Range first count)
      (bits.vector.extractLsb' (bits.width - (first - 1 + count)) count) := by
  have widthLe := bits.width_le
  have small : maxBitsWidth < 2 ^ 32 := by decide
  apply answers_of_ok_iff
  · rintro ⟨_, countPos, inside⟩
    exact ⟨countPos, by omega⟩
  intro result
  have same : (bits.toNat >>> (bits.width - (first - 1 + count))) &&& bitMask count =
      (bits.vector.extractLsb' (bits.width - (first - 1 + count)) count).toNat := by
    rw [and_bitMask, BitVec.extractLsb'_toNat, toNat_vector]
  simp only [slice, check_bind_eq_ok_iff]
  simp only [bind_eq_ok_iff, reject_eq_ok_iff, checkedPosition_eq_ok_iff, checkedAddWidth_eq_ok_iff]
  constructor
  · rintro ⟨_, _, ⟨inside, rfl⟩, _, ⟨_, rfl⟩, _, fits, built⟩
    rw [same, fromBiguint_toNat_eq_ok_iff] at built
    exact ⟨⟨inside.1, by omega, by omega⟩, built⟩
  · rintro ⟨⟨firstPos, countPos, fits⟩, is⟩
    refine ⟨by omega, _, ⟨⟨firstPos, by omega⟩, rfl⟩, _, ⟨by omega, rfl⟩, (), by omega, ?_⟩
    rw [same, fromBiguint_toNat_eq_ok_iff]
    exact is

theorem merged_eq_replaceBits (bits value : Bits) {shift : Nat}
    (fits : shift + value.width ≤ bits.width) :
    (bits.toNat &&& (bitMask bits.width ^^^ bitMask value.width <<< shift)) |||
        value.toNat <<< shift =
      (replaceBits bits.vector shift value.vector).toNat := by
  apply eq_of_testBit_eq
  intro index
  rw [BitVec.testBit_toNat, getLsbD_replaceBits, getLsbD_vector, getLsbD_vector]
  simp only [bitMask_eq]
  by_cases replaced : shift ≤ index ∧ index < shift + value.width
  · have inside : index < bits.width := by omega
    have offset : index - shift < value.width := by omega
    simp [replaced, inside, offset]
  · rw [if_neg replaced]
    by_cases inside : index < bits.width
    · by_cases before : index < shift
      · simp [inside, Nat.not_le.mpr before]
      · have offset : value.width ≤ index - shift := by omega
        simp [inside, Nat.not_lt.mpr offset, testBit_eq_false offset]
    · have offset : value.width ≤ index - shift := by omega
      simp [testBit_eq_false (Nat.le_of_not_lt inside), testBit_eq_false offset]

theorem withSlice_answers (bits : Bits) (first : Nat) (value : Bits) :
    Answers (bits.withSlice first value) (bits.Range first value.width)
      (replaceBits bits.vector (bits.width - (first - 1 + value.width)) value.vector) := by
  have widthLe := bits.width_le
  have small : maxBitsWidth < 2 ^ 32 := by decide
  have valuePos := value.width_pos
  apply answers_of_ok_iff fun _ => bits.validWidth
  intro result
  simp only [withSlice, bind_eq_ok_iff, reject_eq_ok_iff,
    checkedPosition_eq_ok_iff, checkedAddWidth_eq_ok_iff]
  constructor
  · rintro ⟨_, ⟨inside, rfl⟩, _, ⟨_, rfl⟩, _, fits, built⟩
    rw [merged_eq_replaceBits bits value (by omega), fromBiguint_toNat_eq_ok_iff] at built
    exact ⟨⟨inside.1, valuePos, by omega⟩, built⟩
  · rintro ⟨⟨firstPos, _, fits⟩, is⟩
    refine ⟨_, ⟨⟨firstPos, by omega⟩, rfl⟩, _, ⟨by omega, rfl⟩, (), by omega, ?_⟩
    rw [merged_eq_replaceBits bits value (by omega), fromBiguint_toNat_eq_ok_iff]
    exact is

theorem concat_answers (left right : Bits) :
    Answers (left.concat right) (left.width + right.width ≤ maxBitsWidth)
      (left.vector ++ right.vector) := by
  have small : maxBitsWidth < 2 ^ 32 := by decide
  have leftPos := left.width_pos
  apply answers_of_ok_iff
  · intro fits
    exact ⟨by omega, fits⟩
  intro result
  have same : left.toNat <<< right.width ||| right.toNat = (left.vector ++ right.vector).toNat := by
    rw [BitVec.toNat_append, toNat_vector, toNat_vector]
  simp only [concat, bind_eq_ok_iff, checkedAddWidth_eq_ok_iff, validateWidth_eq_ok_iff]
  constructor
  · rintro ⟨_, ⟨_, rfl⟩, _, valid, built⟩
    rw [same, fromBiguint_toNat_eq_ok_iff] at built
    exact ⟨valid.2, built⟩
  · rintro ⟨fits, is⟩
    refine ⟨_, ⟨by omega, rfl⟩, (), ⟨by omega, fits⟩, ?_⟩
    rw [same, fromBiguint_toNat_eq_ok_iff]
    exact is

theorem bitNot_returns (bits : Bits) : Returns bits.bitNot (~~~bits.vector) := by
  apply returns_fromBiguint bits.validWidth
  apply eq_of_testBit_eq
  intro index
  rw [BitVec.testBit_toNat, BitVec.getLsbD_not, getLsbD_vector, bitMask_eq]
  by_cases inside : index < bits.width
  · simp [inside]
  · simp [testBit_eq_false (Nat.le_of_not_lt inside)]

theorem zero_returns (bits : Bits) : Returns (zero bits.width) (BitVec.ofNat bits.width 0) := by
  have length : (replicate (byteLen bits.width) (0 : UInt8)).length = byteLen bits.width :=
    length_replicate
  have value : BigEndian.ofBytes (replicate (byteLen bits.width) 0) = 0 := by
    rw [← append_nil (replicate _ _), ofBytes_replicate_append]
    rfl
  obtain ⟨result, accepted, widthEq, toNatEq⟩ := exists_fromCanonicalBytes bits.validWidth length
    (by rw [value]; exact Nat.two_pow_pos _)
  refine ⟨result, ?_, widthEq, ?_⟩
  · rw [zero, check_bind_eq_ok_iff, validateWidth_eq_ok_iff]
    exact ⟨bits.validWidth, accepted⟩
  · rw [toNatEq, value]
    simp

theorem logicalShiftLeft_returns (bits : Bits) (amount : Nat) :
    Returns (bits.logicalShiftLeft amount) (bits.vector <<< amount) := by
  unfold logicalShiftLeft
  split
  · rename_i beyond
    rw [BitVec.shiftLeft_eq_zero beyond]
    exact zero_returns bits
  · apply returns_fromBiguint bits.validWidth
    rw [and_bitMask, BitVec.toNat_shiftLeft, toNat_vector]

theorem logicalShiftRight_returns (bits : Bits) (amount : Nat) :
    Returns (bits.logicalShiftRight amount) (bits.vector >>> amount) := by
  unfold logicalShiftRight
  split
  · rename_i beyond
    rw [BitVec.ushiftRight_eq_zero beyond]
    exact zero_returns bits
  · apply returns_fromBiguint bits.validWidth
    rw [BitVec.toNat_ushiftRight, toNat_vector]

theorem signedFits_toInt (widthPos : 0 < width) (vector : BitVec width) :
    signedFits width vector.toInt = true :=
  signedFits_iff.mpr ⟨widthPos, vector.le_toInt, BitVec.toInt_lt⟩

theorem returns_fromBigintTwosComplement {value : Int} {vector : BitVec width}
    (validWidth : ValidWidth width) (same : value = vector.toInt) :
    Returns (fromBigintTwosComplement width value) vector := by
  apply returns_of_ok_iff validWidth
  intro bits
  rw [same, fromBigintTwosComplement_eq_ok_iff]
  simp [signedFits_toInt validWidth.1 vector]

theorem shiftRight_of_width_le {amount : Nat} (widthPos : 0 < width) (vector : BitVec width)
    (beyond : width ≤ amount) : vector.toInt >>> amount = if vector.toInt < 0 then -1 else 0 := by
  have low := vector.le_toInt
  have high := @BitVec.toInt_lt width vector
  have wide : (2 : Int) ^ (width - 1) ≤ 2 ^ amount :=
    pow_le_pow_right₀ (by norm_num) (by omega)
  have positive : (0 : Int) < 2 ^ amount := by positivity
  rw [Int.shiftRight_eq_div_pow]
  push_cast
  split
  · rename_i negative
    rw [Int.ediv_eq_iff_of_pos positive]
    omega
  · rw [Int.ediv_eq_zero_of_lt (by omega) (by omega)]

theorem arithmeticShiftRight_returns (bits : Bits) (amount : Nat) :
    Returns (bits.arithmeticShiftRight amount) (bits.vector.sshiftRight amount) := by
  unfold arithmeticShiftRight
  split
  · rename_i none
    refine ⟨bits, rfl, rfl, ?_⟩
    rw [none, BitVec.sshiftRight_zero, toNat_vector]
  · apply returns_fromBigintTwosComplement bits.validWidth
    rw [BitVec.toInt_sshiftRight, toSignedBigint_eq]
    split
    · rename_i beyond
      rw [shiftRight_of_width_le bits.width_pos bits.vector beyond]
    · rfl

theorem rotateLeft_returns (bits : Bits) (amount : Nat) :
    Returns (bits.rotateLeft amount) (bits.vector.rotateLeft amount) := by
  unfold rotateLeft
  dsimp only
  have inside : bits.toNat >>> (bits.width - amount % bits.width) % 2 ^ bits.width =
      bits.toNat >>> (bits.width - amount % bits.width) :=
    mod_eq_of_lt ((shiftRight_le _ _).trans_lt bits.toNat_lt)
  split
  · rename_i none
    refine ⟨bits, rfl, rfl, ?_⟩
    rw [BitVec.toNat_rotateLeft, toNat_vector, none, shiftLeft_zero, Nat.sub_zero,
      mod_eq_of_lt bits.toNat_lt, shiftRight_eq_zero _ _ bits.toNat_lt, or_zero]
  · apply returns_fromBiguint bits.validWidth
    rw [and_bitMask, or_mod_two_pow, inside, BitVec.toNat_rotateLeft, toNat_vector]

theorem rotateRight_returns (bits : Bits) (amount : Nat) :
    Returns (bits.rotateRight amount) (bits.vector.rotateRight amount) := by
  unfold rotateRight
  dsimp only
  have inside : bits.toNat >>> (amount % bits.width) % 2 ^ bits.width =
      bits.toNat >>> (amount % bits.width) :=
    mod_eq_of_lt ((shiftRight_le _ _).trans_lt bits.toNat_lt)
  split
  · rename_i none
    refine ⟨bits, rfl, rfl, ?_⟩
    have shifted : bits.toNat <<< bits.width % 2 ^ bits.width = 0 := by
      rw [shiftLeft_eq, mul_mod_left]
    rw [BitVec.toNat_rotateRight, toNat_vector, none, shiftRight_zero, Nat.sub_zero, shifted,
      or_zero]
  · apply returns_fromBiguint bits.validWidth
    rw [and_bitMask, or_mod_two_pow, inside, BitVec.toNat_rotateRight, toNat_vector]

theorem zeroExtend_answers (bits : Bits) (newWidth : Nat) :
    Answers (bits.zeroExtend newWidth) (bits.width ≤ newWidth ∧ newWidth ≤ maxBitsWidth)
      (bits.vector.setWidth newWidth) := by
  have widthPos := bits.width_pos
  apply answers_of_ok_iff
  · rintro ⟨wider, fits⟩
    exact ⟨by omega, fits⟩
  intro result
  rw [zeroExtend, check_bind_eq_ok_iff, reject_eq_ok_iff, not_lt]
  have same (wider : bits.width ≤ newWidth) :
      bits.toNat = (bits.vector.setWidth newWidth).toNat := by
    rw [BitVec.toNat_setWidth, toNat_vector, mod_eq_of_lt]
    exact bits.toNat_lt.trans_le (Nat.pow_le_pow_right (by norm_num) wider)
  constructor
  · rintro ⟨wider, built⟩
    rw [same wider, fromBiguint_toNat_eq_ok_iff] at built
    exact ⟨⟨wider, built.width_eq ▸ result.width_le⟩, built⟩
  · rintro ⟨⟨wider, _⟩, is⟩
    rw [same wider, fromBiguint_toNat_eq_ok_iff]
    exact ⟨wider, is⟩

theorem signExtend_answers (bits : Bits) (newWidth : Nat) :
    Answers (bits.signExtend newWidth) (bits.width ≤ newWidth ∧ newWidth ≤ maxBitsWidth)
      (bits.vector.signExtend newWidth) := by
  have widthPos := bits.width_pos
  apply answers_of_ok_iff
  · rintro ⟨wider, fits⟩
    exact ⟨by omega, fits⟩
  intro result
  rw [signExtend, check_bind_eq_ok_iff, reject_eq_ok_iff, not_lt]
  have same (wider : bits.width ≤ newWidth) :
      bits.toSignedBigint = (bits.vector.signExtend newWidth).toInt := by
    rw [BitVec.toInt_signExtend_of_le wider, toSignedBigint_eq]
  constructor
  · rintro ⟨wider, built⟩
    rw [same wider, fromBigintTwosComplement_eq_ok_iff, BitVec.ofInt_toInt] at built
    exact ⟨⟨wider, built.2.width_eq ▸ result.width_le⟩, built.2⟩
  · rintro ⟨⟨wider, _⟩, is⟩
    rw [same wider, fromBigintTwosComplement_eq_ok_iff, BitVec.ofInt_toInt]
    exact ⟨wider, signedFits_toInt (by omega) _, is⟩

theorem truncate_answers (bits : Bits) (newWidth : Nat) :
    Answers (bits.truncate newWidth) (1 ≤ newWidth ∧ newWidth ≤ bits.width)
      (bits.vector.setWidth newWidth) := by
  apply answers_of_ok_iff
  · rintro ⟨positive, narrower⟩
    exact ⟨positive, narrower.trans bits.width_le⟩
  intro result
  have same : bits.toNat &&& bitMask newWidth = (bits.vector.setWidth newWidth).toNat := by
    rw [and_bitMask, BitVec.toNat_setWidth, toNat_vector]
  rw [truncate, check_bind_eq_ok_iff, reject_eq_ok_iff, same,
    fromBiguint_toNat_eq_ok_iff, not_or, not_lt, one_le_iff_ne_zero]

end Bits

end BoonCircuit.Data
