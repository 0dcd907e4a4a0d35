import BoonCircuit.Data.Arithmetic
import BoonCircuit.Lib.BigEndian
import BoonCircuit.Lib.Order

/-!
# Fixed-width bit sequences

`Bits` is the canonical immutable bit sequence of `boon_data`.  Its bytes are
big-endian, there are exactly `ceil (width / 8)` of them, and the unused high
bits of the first byte are zero.  The order reads the bits from the left and
puts a shorter sequence before its extensions.

The operations are computed through the unsigned or the signed number that the bits
spell, with masks, shifts and range checks, and back through `fromBiguint`, which pads
the bytes of the result to the width.
-/

namespace BoonCircuit.Data

open Lib BigEndian List Nat

/-- Semantic ceiling for the width of one bit sequence. -/
def maxBitsWidth : Nat := 1048576

/-- A rejected bit sequence. -/
structure BitsError where
  message : String
  deriving DecidableEq

/-- Number of bytes of a bit sequence. -/
def byteLen (width : Nat) : Nat :=
  (width + 7) / 8

/-- Whether some bit above the width is set in the first byte. -/
def unusedHighBitsSet (width : Nat) (bytes : List UInt8) : Bool :=
  let unused := (8 - width % 8) % 8
  decide (unused ≠ 0) && bytes.head?.any fun byte => byte.toNat >>> (8 - unused) != 0

/-- A canonical bit sequence. -/
@[ext]
structure Bits where
  width : Nat
  bytes : List UInt8
  width_pos : 0 < width
  width_le : width ≤ maxBitsWidth
  length_bytes : bytes.length = byteLen width
  unused_clear : unusedHighBitsSet width bytes = false
  deriving DecidableEq

namespace Bits

/-- Builds a bit sequence from its canonical bytes only. -/
def fromCanonicalBytes (width : Nat) (bytes : List UInt8) : Except BitsError Bits :=
  if widthZero : width = 0 then .error ⟨"BITS width must be positive"⟩
  else if tooWide : maxBitsWidth < width then
    .error ⟨"BITS width " ++ toString width ++ " exceeds deterministic semantic limit " ++
      toString maxBitsWidth⟩
  else if wrongLength : bytes.length ≠ byteLen width then
    .error ⟨"BITS[" ++ toString width ++ "] requires exactly " ++ toString (byteLen width) ++
      " canonical byte(s), found " ++ toString bytes.length⟩
  else if unusedSet : unusedHighBitsSet width bytes = true then
    .error ⟨"BITS[" ++ toString width ++ "] has nonzero unused high bits"⟩
  else .ok {
    width := width
    bytes := bytes
    width_pos := Nat.pos_of_ne_zero widthZero
    width_le := Nat.le_of_not_lt tooWide
    length_bytes := not_not.mp wrongLength
    unused_clear := Bool.eq_false_of_not_eq_true unusedSet }

variable {bytes : List UInt8} {width : Nat}

theorem fromCanonicalBytes_eq_ok_iff {bits : Bits} :
    fromCanonicalBytes width bytes = .ok bits ↔ width = bits.width ∧ bytes = bits.bytes := by
  constructor
  · intro accepted
    unfold fromCanonicalBytes at accepted
    repeat' split at accepted
    all_goals first | cases accepted; exact ⟨rfl, rfl⟩ | cases accepted
  · rintro ⟨rfl, rfl⟩
    have notWide : ¬ maxBitsWidth < bits.width := not_lt.mpr bits.width_le
    simp [fromCanonicalBytes, bits.width_pos.ne', notWide, bits.length_bytes, bits.unused_clear]

variable (bits : Bits)

/-- The unsigned number spelled by the bits. -/
def toNat : Nat :=
  ofBytes bits.bytes

/-- The bit at a one-based position counted from the left. -/
def bitFromLeft (position : Nat) : Bool :=
  bits.toNat.testBit (bits.width - position)

/-- Bitwise comparison from the left, then by width. -/
def cmp (left right : Bits) : Ordering :=
  (List.range (min left.width right.width)).foldr
    (fun index rest =>
      (compare (left.bitFromLeft (index + 1)) (right.bitFromLeft (index + 1))).then rest)
    (compare left.width right.width)

instance : Ord Bits :=
  ⟨cmp⟩

/-- All bits from the left. -/
def leftBits : List Bool :=
  (List.range bits.width).map fun index => bits.bitFromLeft (index + 1)

@[simp]
theorem length_leftBits : bits.leftBits.length = bits.width := by
  simp [leftBits]

/-- The unused high bits of the right number of bytes are clear exactly when the number
fits the width. -/
theorem unusedHighBitsSet_eq_false_iff (widthPos : 0 < width)
    (length : bytes.length = byteLen width) :
    unusedHighBitsSet width bytes = false ↔ ofBytes bytes < 2 ^ width := by
  cases bytes with
  | nil =>
    rw [length_nil, byteLen] at length
    omega
  | cons byte rest =>
    rw [length_cons, byteLen] at length
    have restLt := ofBytes_lt rest
    have firstByte : unusedHighBitsSet width (byte :: rest) = false ↔
        byte.toNat < 2 ^ (width - 8 * rest.length) := by
      by_cases aligned : width % 8 = 0
      · have full : width - 8 * rest.length = 8 := by omega
        rw [full]
        simp [unusedHighBitsSet, aligned, byte.toNat_lt]
      · have unused : (8 - width % 8) % 8 = 8 - width % 8 := by omega
        have used : 8 - (8 - width % 8) = width - 8 * rest.length := by omega
        have unusedNe : 8 - width % 8 ≠ 0 := by omega
        simp only [unusedHighBitsSet, unused, used, unusedNe, ne_eq, not_false_eq_true,
          decide_true, Bool.true_and, head?_cons, Option.any_some, bne_eq_false_iff_eq]
        rw [Nat.shiftRight_eq_div_pow, Nat.div_eq_zero_iff_lt (Nat.two_pow_pos _)]
    have split : 2 ^ width = 2 ^ (width - 8 * rest.length) * 256 ^ rest.length := by
      have base : (256 : Nat) = 2 ^ 8 := by norm_num
      rw [base, ← pow_mul, ← pow_add]
      congr 1
      omega
    rw [firstByte, ofBytes_cons, split]
    constructor
    · intro byteLt
      calc byte.toNat * 256 ^ rest.length + ofBytes rest
          < byte.toNat * 256 ^ rest.length + 256 ^ rest.length := by omega
        _ = (byte.toNat + 1) * 256 ^ rest.length := by ring
        _ ≤ 2 ^ (width - 8 * rest.length) * 256 ^ rest.length :=
            mul_le_mul_right _ byteLt
    · intro fits
      exact lt_of_mul_lt_mul_right (lt_of_le_of_lt (le_add_right _ _) fits) (zero_le _)

theorem toNat_lt : bits.toNat < 2 ^ bits.width :=
  (unusedHighBitsSet_eq_false_iff bits.width_pos bits.length_bytes).mp bits.unused_clear

theorem ext_toNat {left right : Bits} (sameWidth : left.width = right.width)
    (sameNat : left.toNat = right.toNat) : left = right := by
  have sameBytes : left.bytes = right.bytes :=
    ofBytes_injOn (by rw [left.length_bytes, right.length_bytes, sameWidth]) sameNat
  exact Bits.ext sameWidth sameBytes

theorem leftBits_injective : Function.Injective leftBits := by
  intro left right same
  have sameWidth : left.width = right.width := by
    simpa using congrArg length same
  have sameNat : left.toNat = right.toNat := by
    apply eq_of_testBit_eq
    intro index
    by_cases inside : index < left.width
    · have position : left.width - 1 - index < left.width := by omega
      have bitsEq := congrArg (fun bits => bits[left.width - 1 - index]?) same
      simp only [leftBits, getElem?_map, ← sameWidth, getElem?_range position,
        Option.map_some, Option.some.injEq, bitFromLeft] at bitsEq
      have leftIndex : left.width - (left.width - 1 - index + 1) = index := by omega
      rwa [leftIndex] at bitsEq
    · have outside : 2 ^ left.width ≤ 2 ^ index := Nat.pow_le_pow_right (by norm_num) (by omega)
      rw [testBit_lt_two_pow (left.toNat_lt.trans_le outside),
        testBit_lt_two_pow ((sameWidth ▸ right.toNat_lt).trans_le outside)]
  exact ext_toNat sameWidth sameNat

/-- Comparing position by position and then by length is the lexicographic order. -/
private theorem foldr_zipWith_compare (left right : List Bool) :
    (List.zipWith compare left right).foldr Ordering.then (compare left.length right.length) =
      compare left right := by
  induction left generalizing right with
  | nil => cases right <;> rfl
  | cons bit left ih =>
    cases right with
    | nil => rfl
    | cons other right =>
      have lengths : compare (bit :: left).length (other :: right).length =
          compare left.length right.length := by
        simp [compare_eq_ite_lt]
      rw [zipWith_cons_cons, foldr_cons, lengths, ih]
      exact List.compareLex_cons_cons.symm

/-- The order of bit sequences is the lexicographic order of their bits. -/
theorem compare_eq_compare_leftBits (left right : Bits) :
    compare left right = compare left.leftBits right.leftBits := by
  have positions :
      (range (min left.width right.width)).map (fun index =>
          compare (left.bitFromLeft (index + 1)) (right.bitFromLeft (index + 1))) =
        zipWith compare left.leftBits right.leftBits := by
    apply ext_getElem <;> simp [leftBits]
  rw [← foldr_zipWith_compare, ← positions, foldr_map, length_leftBits, length_leftBits]
  rfl

instance : Std.TransOrd Bits :=
  Order.transOrd_of_compare_eq leftBits compare_eq_compare_leftBits

instance : Std.LawfulEqOrd Bits :=
  Order.lawfulEqOrd_of_compare_eq leftBits leftBits_injective compare_eq_compare_leftBits

end Bits

open Lib Checks

/-- From which end positions are counted. -/
inductive BitsDirection where
  | left
  | right
  deriving DecidableEq

/-- How the bits are read as a number. -/
inductive BitsInterpretation where
  | unsigned
  | twosComplement
  deriving DecidableEq

inductive BitsByteOrder where
  | bigEndian
  | littleEndian
  deriving DecidableEq

/-- Reported failure of checked arithmetic. -/
inductive BitsArithmeticFailure where
  | underflow
  | overflow
  deriving DecidableEq

def validateWidth (width : Nat) : Except BitsError Unit := do
  reject (width = 0) ⟨"BITS width must be positive"⟩
  reject (maxBitsWidth < width)
    ⟨"BITS width " ++ toString width ++ " exceeds deterministic semantic limit " ++
      toString maxBitsWidth⟩

/-- The zero-based form of a one-based position inside the width. -/
def checkedPosition (width oneBasedPosition : Nat) : Except BitsError Nat := do
  reject (oneBasedPosition = 0) ⟨"BITS positions are one-based"⟩
  let zeroBased := oneBasedPosition - 1
  reject (2 ^ 32 ≤ zeroBased) ⟨"BITS position does not fit the semantic width domain"⟩
  reject (width ≤ zeroBased)
    ⟨"BITS position " ++ toString oneBasedPosition ++ " exceeds width " ++ toString width⟩
  pure zeroBased

/-- Addition of 32-bit widths. -/
def checkedAddWidth (left right : Nat) (message : String) : Except BitsError Nat := do
  reject (2 ^ 32 ≤ left + right) ⟨message⟩
  pure (left + right)

def bitMask (width : Nat) : Nat :=
  (1 <<< width) - 1

def signedFits (width : Nat) (value : Int) : Bool :=
  width ≠ 0 && -(1 <<< (width - 1) : Nat) ≤ value && value < (1 <<< (width - 1) : Nat)

/-- The big-endian bytes of a big integer; zero has one byte. -/
def bigIntegerBytes (value : Nat) : List UInt8 :=
  if value = 0 then [0] else BigEndian.toBytes value

/-- A number with one bit set or cleared. -/
def setBit (raw bit : Nat) (value : Bool) : Nat :=
  if raw.testBit bit = value then raw else raw ^^^ 1 <<< bit

namespace Bits

/-- All bits clear; the zero bytes are canonical at every valid width. -/
def zero (width : Nat) : Except BitsError Bits := do
  validateWidth width
  fromCanonicalBytes width (List.replicate (byteLen width) 0)

/-- The sequence of a given width that spells a number. -/
def fromBiguint (width value : Nat) : Except BitsError Bits := do
  validateWidth width
  reject (width < value.size)
    ⟨"value requires " ++ toString value.size ++ " bits and does not fit BITS[" ++
      toString width ++ "]"⟩
  let encoded := bigIntegerBytes value
  reject (byteLen width < encoded.length) ⟨"BITS canonical byte length underflowed"⟩
  fromCanonicalBytes width (List.replicate (byteLen width - encoded.length) 0 ++ encoded)

variable (left right : Bits)

def sameWidth (operation : String) : Except BitsError Unit :=
  reject (left.width ≠ right.width)
    ⟨operation ++ " requires equal widths, found BITS[" ++ toString left.width ++
      "] and BITS[" ++ toString right.width ++ "]"⟩

variable (bits : Bits)

/-- The signed number spelled by the bits; the leftmost bit is the sign. -/
def toSignedBigint : Int :=
  if bits.bitFromLeft 1 then bits.toNat - (1 <<< bits.width : Nat) else bits.toNat

def fromBigintTwosComplement (width : Nat) (value : Int) : Except BitsError Bits := do
  validateWidth width
  reject (signedFits width value = false)
    ⟨"signed value does not fit BITS[" ++ toString width ++ "]"⟩
  let encoded := if value < 0 then value + (1 <<< width : Nat) else value
  fromBiguint width encoded.natAbs

def bitIndex (oneBasedPosition : Nat) (direction : BitsDirection) : Except BitsError Nat := do
  let zeroBased ← checkedPosition bits.width oneBasedPosition
  pure (match direction with
    | .left => bits.width - zeroBased - 1
    | .right => zeroBased)

def bit (bits : Bits) (oneBasedPosition : Nat) (direction : BitsDirection) :
    Except BitsError Bool := do
  let bit ← bits.bitIndex oneBasedPosition direction
  pure (bits.toNat.testBit bit)

def withBit (oneBasedPosition : Nat) (direction : BitsDirection) (value : Bool) :
    Except BitsError Bits := do
  let bit ← bits.bitIndex oneBasedPosition direction
  fromBiguint bits.width (setBit bits.toNat bit value)

def slice (bits : Bits) (oneBasedFrom count : Nat) : Except BitsError Bits := do
  reject (count = 0) ⟨"Bits/slice count must be positive"⟩
  let start ← checkedPosition bits.width oneBasedFrom
  let finish ← checkedAddWidth start count "Bits/slice range overflowed"
  reject (bits.width < finish)
    ⟨"Bits/slice range from " ++ toString oneBasedFrom ++ " with count " ++ toString count ++
      " exceeds width " ++ toString bits.width⟩
  let shift := bits.width - finish
  fromBiguint count ((bits.toNat >>> shift) &&& bitMask count)

def withSlice (oneBasedFrom : Nat) (value : Bits) : Except BitsError Bits := do
  let start ← checkedPosition bits.width oneBasedFrom
  let finish ← checkedAddWidth start value.width "Bits/set_slice range overflowed"
  reject (bits.width < finish)
    ⟨"Bits/set_slice range from " ++ toString oneBasedFrom ++ " with width " ++
      toString value.width ++ " exceeds width " ++ toString bits.width⟩
  let shift := bits.width - finish
  let rangeMask := bitMask value.width <<< shift
  let fullMask := bitMask bits.width
  fromBiguint bits.width ((bits.toNat &&& (fullMask ^^^ rangeMask)) ||| value.toNat <<< shift)

def concat (left right : Bits) : Except BitsError Bits := do
  let width ← checkedAddWidth left.width right.width "Bits/concat width overflowed"
  validateWidth width
  fromBiguint width (left.toNat <<< right.width ||| right.toNat)

/-- A bitwise operation on two sequences of one width. -/
def bitwise (operation : String) (combine : Nat → Nat → Nat) (left right : Bits) :
    Except BitsError Bits := do
  left.sameWidth right operation
  fromBiguint left.width (combine left.toNat right.toNat)

def bitAnd : Except BitsError Bits :=
  bitwise "Bits/and" (· &&& ·) left right

def bitOr : Except BitsError Bits :=
  bitwise "Bits/or" (· ||| ·) left right

def bitXor : Except BitsError Bits :=
  bitwise "Bits/xor" (· ^^^ ·) left right

def bitNot : Except BitsError Bits :=
  fromBiguint bits.width (bits.toNat ^^^ bitMask bits.width)

def logicalShiftLeft (amount : Nat) : Except BitsError Bits :=
  if bits.width ≤ amount then zero bits.width
  else fromBiguint bits.width ((bits.toNat <<< amount) &&& bitMask bits.width)

def logicalShiftRight (amount : Nat) : Except BitsError Bits :=
  if bits.width ≤ amount then zero bits.width
  else fromBiguint bits.width (bits.toNat >>> amount)

def arithmeticShiftRight (amount : Nat) : Except BitsError Bits :=
  if amount = 0 then .ok bits
  else
    let signed := bits.toSignedBigint
    let shifted :=
      if bits.width ≤ amount then if signed < 0 then -1 else 0
      else signed >>> amount
    fromBigintTwosComplement bits.width shifted

def rotateLeft (amount : Nat) : Except BitsError Bits :=
  let amount := amount % bits.width
  if amount = 0 then .ok bits
  else fromBiguint bits.width
    ((bits.toNat <<< amount ||| bits.toNat >>> (bits.width - amount)) &&& bitMask bits.width)

def rotateRight (amount : Nat) : Except BitsError Bits :=
  let amount := amount % bits.width
  if amount = 0 then .ok bits
  else fromBiguint bits.width
    ((bits.toNat >>> amount ||| bits.toNat <<< (bits.width - amount)) &&& bitMask bits.width)

def zeroExtend (newWidth : Nat) : Except BitsError Bits := do
  reject (newWidth < bits.width)
    ⟨"Bits/zero_extend width " ++ toString newWidth ++ " is smaller than " ++ toString bits.width⟩
  fromBiguint newWidth bits.toNat

def signExtend (newWidth : Nat) : Except BitsError Bits := do
  reject (newWidth < bits.width)
    ⟨"Bits/sign_extend width " ++ toString newWidth ++ " is smaller than " ++ toString bits.width⟩
  fromBigintTwosComplement newWidth bits.toSignedBigint

def truncate (bits : Bits) (newWidth : Nat) : Except BitsError Bits := do
  reject (newWidth = 0 ∨ bits.width < newWidth)
    ⟨"Bits/truncate width must be between 1 and " ++ toString bits.width ++ ", found " ++
      toString newWidth⟩
  fromBiguint newWidth (bits.toNat &&& bitMask newWidth)

protected def compare (left right : Bits) (interpretation : BitsInterpretation) :
    Except BitsError Ordering := do
  left.sameWidth right "Bits/compare"
  pure (match interpretation with
    | .unsigned => Ord.compare left.toNat right.toNat
    | .twosComplement => Ord.compare left.toSignedBigint right.toSignedBigint)

def addOrWrap : Except BitsError Bits := do
  left.sameWidth right "Bits/add_or_wrap"
  fromBiguint left.width ((left.toNat + right.toNat) &&& bitMask left.width)

variable (interpretation : BitsInterpretation)

def addWidening : Except BitsError Bits := do
  left.sameWidth right "Bits/add_widening"
  let width ← checkedAddWidth left.width 1 "Bits/add_widening width overflowed"
  validateWidth width
  match interpretation with
  | .unsigned => fromBiguint width (left.toNat + right.toNat)
  | .twosComplement => fromBigintTwosComplement width (left.toSignedBigint + right.toSignedBigint)

def tryAdd : Except BitsError (Except BitsArithmeticFailure Bits) := do
  left.sameWidth right "Bits/try_add"
  match interpretation with
  | .unsigned =>
    let value := left.toNat + right.toNat
    if left.width < value.size then pure (.error .overflow)
    else Except.ok <$> fromBiguint left.width value
  | .twosComplement =>
    let value := left.toSignedBigint + right.toSignedBigint
    if signedFits left.width value = false then pure (.error .overflow)
    else Except.ok <$> fromBigintTwosComplement left.width value

/-- The remainders of the big-integer library have the sign of the dividend. -/
def subtractOrWrap : Except BitsError Bits := do
  left.sameWidth right "Bits/subtract_or_wrap"
  let modulus : Int := (1 <<< left.width : Nat)
  let difference : Int := left.toNat - right.toNat
  let wrapped := (difference.tmod modulus + modulus).tmod modulus
  fromBiguint left.width wrapped.natAbs

def trySubtract : Except BitsError (Except BitsArithmeticFailure Bits) := do
  left.sameWidth right "Bits/try_subtract"
  match interpretation with
  | .unsigned =>
    if left.toNat < right.toNat then pure (.error .underflow)
    else Except.ok <$> fromBiguint left.width (left.toNat - right.toNat)
  | .twosComplement =>
    let value := left.toSignedBigint - right.toSignedBigint
    if signedFits left.width value = false then pure (.error .overflow)
    else Except.ok <$> fromBigintTwosComplement left.width value

def fromNumber (width : Nat) (value : ExactNumber) (interpretation : BitsInterpretation) :
    Except BitsError Bits := do
  reject (value.isWhole = false) ⟨"Number/to_bits requires a whole Number"⟩
  let integer := value.numerator
  match interpretation with
  | .unsigned =>
    reject (integer < 0) ⟨"Number/to_bits Unsigned rejects negative values"⟩
    fromBiguint width integer.toNat
  | .twosComplement =>
    reject (signedFits width integer = false)
      ⟨"Number does not fit signed BITS[" ++ toString width ++ "]"⟩
    fromBigintTwosComplement width integer

def toNumber : Except BitsError ExactNumber :=
  let integer : Int := match interpretation with
    | .unsigned => bits.toNat
    | .twosComplement => bits.toSignedBigint
  (ExactNumber.fromRatio integer 1).mapError fun fault => ⟨fault.message⟩

def toBytes (byteOrder : BitsByteOrder) : Except BitsError (List UInt8) := do
  reject (bits.width % 8 ≠ 0)
    ⟨"BITS[" ++ toString bits.width ++
      "] is not byte-aligned; pad it explicitly before converting to BYTES"⟩
  pure (match byteOrder with
    | .bigEndian => bits.bytes
    | .littleEndian => bits.bytes.reverse)

def fromBytes (width : Nat) (bytes : List UInt8) (byteOrder : BitsByteOrder) :
    Except BitsError Bits := do
  validateWidth width
  reject (width % 8 ≠ 0)
    ⟨"BITS[" ++ toString width ++
      "] is not byte-aligned; pad the BYTES explicitly before converting"⟩
  fromCanonicalBytes width (if byteOrder = .littleEndian then bytes.reverse else bytes)

end Bits

end BoonCircuit.Data
