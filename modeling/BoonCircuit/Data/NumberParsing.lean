import BoonCircuit.Data.Arithmetic
import BoonCircuit.Lib.Numeral

/-!
# Parsing exact numbers

Strict parsing of number texts.  A text without a radix is scanned twice: the
validation pass walks over the characters and reports one-based positions, and the
conversion pass splits the text and builds the exact ratio.  A text with a radix is
one whole number with an optional base prefix.  Texts are lists of characters;
only ASCII characters are ever accepted, so positions count characters and bytes
alike in every accepted text.
-/

namespace BoonCircuit.Data

open Lib Numeral Checks ExactNumber

/-- Stable reason of a rejected number text. -/
inductive ExactNumberParseReason where
  | empty
  | whitespace
  | leadingPlus
  | invalidDigit
  | invalidSyntax
  | invalidExponent
  | zeroDenominator
  | invalidRadix
  | resourceLimit
  deriving DecidableEq

/-- One-based, deterministic failure of strict parsing. -/
structure ExactNumberParseError where
  reason : ExactNumberParseReason
  position : Nat
  message : String
  deriving DecidableEq

def parseFailure (reason : ExactNumberParseReason) (position : Nat) (message : String) :
    ExactNumberParseError :=
  ⟨reason, max position 1, message⟩

/-- The characters with the Unicode property `White_Space`. -/
def isWhitespace (character : Char) : Bool :=
  let code := character.toNat
  (9 ≤ code && code ≤ 13) || code == 32 || code == 0x85 || code == 0xA0 || code == 0x1680 ||
    (0x2000 ≤ code && code ≤ 0x200A) || code == 0x2028 || code == 0x2029 || code == 0x202F ||
    code == 0x205F || code == 0x3000

/-- Removes surrounding whitespace. -/
def trim (text : List Char) : List Char :=
  ((text.dropWhile isWhitespace).reverse.dropWhile isWhitespace).reverse

/-- Removes one leading minus sign, if there is one. -/
def stripMinus (text : List Char) : List Char :=
  if text.head? = some '-' then text.tail else text

/-- One for a text with a leading minus sign. -/
def signOffset (text : List Char) : Nat :=
  if text.head? = some '-' then 1 else 0

def validateDigitBudget (digitCount position : Nat) (profile : ExactNumberSemanticProfileV1) :
    Except ExactNumberParseError Unit :=
  if digitCount = 0 then
    .error (parseFailure .empty position "Number text contains no digits")
  else if profile.maxParsedDigits < digitCount then
    .error (parseFailure .resourceLimit position
      ("parsed digit budget exceeded: " ++ toString digitCount ++ " > " ++
        toString profile.maxParsedDigits))
  else .ok ()

/-- Counts one decimal digit or rejects the character. -/
def countDecimalDigit (startPosition count : Nat) (item : Char × Nat) :
    Except ExactNumberParseError Nat :=
  let (character, offset) := item
  if !isAsciiDigit character then
    .error (parseFailure .invalidDigit (startPosition + offset)
      ("`" ++ toString character ++ "` is not a decimal digit"))
  else .ok (count + 1)

/-- Counts decimal digits and rejects the first other character. -/
def validateDecimalDigits (text : List Char) (startPosition : Nat) :
    Except ExactNumberParseError Nat :=
  text.zipIdx.foldlM (countDecimalDigit startPosition) 0

/-- The positions of all slashes. -/
def slashPositions (text : List Char) : List Nat :=
  text.zipIdx.filterMap fun (character, index) => if character = '/' then some index else none

/-- Validation of a text with exactly one slash. -/
def validateFraction (text : List Char) (slash : Nat) (profile : ExactNumberSemanticProfileV1) :
    Except ExactNumberParseError Unit := do
  let numerator := text.take slash
  let denominator := text.drop (slash + 1)
  let numeratorDigits := stripMinus numerator
  reject (numeratorDigits = []) (parseFailure .empty 1 "fraction numerator is empty")
  let numeratorCount ← validateDecimalDigits numeratorDigits (signOffset numerator + 1)
  reject (denominator = []) (parseFailure .empty (text.length + 1) "fraction denominator is empty")
  let denominatorPosition := (text.take (slash + 1)).length + 1
  let denominatorCount ← validateDecimalDigits denominator denominatorPosition
  validateDigitBudget (numeratorCount + denominatorCount) denominatorPosition profile
  reject (denominator.all (· = '0'))
    (parseFailure .zeroDenominator denominatorPosition "fraction denominator must be positive")

/-- What the scanner of decimal texts has seen so far. -/
structure DecimalScan where
  seenDecimal : Bool := false
  seenExponent : Bool := false
  mantissaDigits : Nat := 0
  exponentDigits : Nat := 0
  exponentSignAllowed : Bool := false
  deriving DecidableEq

/-- One round of the scanner of decimal texts. -/
def DecimalScan.step (scan : DecimalScan) (position : Nat) (character : Char) :
    Except ExactNumberParseError DecimalScan :=
  if isAsciiDigit character then
    .ok (if scan.seenExponent then
        { scan with exponentDigits := scan.exponentDigits + 1, exponentSignAllowed := false }
      else { scan with mantissaDigits := scan.mantissaDigits + 1, exponentSignAllowed := false })
  else if character = '.' then
    if !scan.seenDecimal && !scan.seenExponent then .ok { scan with seenDecimal := true }
    else .error (parseFailure .invalidSyntax position
      "Number text repeats or misplaces the decimal point")
  else if character = 'e' ∨ character = 'E' then
    if !scan.seenExponent && 0 < scan.mantissaDigits then
      .ok { scan with seenExponent := true, exponentSignAllowed := true }
    else .error (parseFailure .invalidExponent position
      "Number text repeats or misplaces the exponent marker")
  else if character = '+' ∨ character = '-' then
    if scan.exponentSignAllowed then .ok { scan with exponentSignAllowed := false }
    else .error (parseFailure .invalidExponent position
      "sign is valid only at the start of an exponent")
  else .error (parseFailure .invalidDigit position
    ("`" ++ toString character ++ "` is not valid Number syntax"))

/-- The scanner of decimal texts, from a one-based position. -/
def scanDecimal (scan : DecimalScan) (position : Nat) :
    List Char → Except ExactNumberParseError DecimalScan
  | [] => .ok scan
  | character :: rest => do
    let next ← scan.step position character
    scanDecimal next (position + 1) rest

/-- Validation of a text without a slash. -/
def validateDecimal (text : List Char) (profile : ExactNumberSemanticProfileV1) :
    Except ExactNumberParseError Unit := do
  let unsigned := stripMinus text
  reject (unsigned = []) (parseFailure .empty 2 "Number text contains no digits")
  let scan ← scanDecimal {} (signOffset text + 1) unsigned
  reject (scan.mantissaDigits = 0)
    (parseFailure .empty (signOffset text + 1) "Number mantissa contains no digits")
  reject (scan.seenExponent ∧ scan.exponentDigits = 0)
    (parseFailure .invalidExponent (text.length + 1) "Number exponent contains no digits")
  validateDigitBudget (scan.mantissaDigits + scan.exponentDigits) text.length profile

def validateDefaultNumberSyntax (text : List Char) (profile : ExactNumberSemanticProfileV1) :
    Except ExactNumberParseError Unit :=
  if text = [] then .error (parseFailure .empty 1 "Number text is empty")
  else match text.findIdx? isWhitespace with
    | some offset => .error (parseFailure .whitespace (offset + 1)
        "strict Number text cannot contain whitespace")
    | none =>
      if text.head? = some '+' then
        .error (parseFailure .leadingPlus 1
          "strict Number text does not accept a leading plus sign")
      else match slashPositions text with
        | _ :: second :: _ => .error (parseFailure .invalidSyntax
            ((text.take second).length + 1) "fraction notation contains more than one slash")
        | [slash] => validateFraction text slash profile
        | [] => validateDecimal text profile

/-- The two parts around the only separator of a text. -/
def splitOnceUnique (text : List Char) (separator : Char) :
    Except ExactNumberError (Option (List Char × List Char)) :=
  match text.findIdx? (· = separator) with
  | none => .ok none
  | some index =>
    if separator ∈ text.drop (index + 1) then
      .error ⟨"exact Number text repeats `" ++ toString separator ++ "`"⟩
    else .ok (some (text.take index, text.drop (index + 1)))

/-- The unsigned reader of the big-integer library: one leading plus sign and
underscores between digits are tolerated. -/
def parseUnsignedBytes (text : List Char) (radix : Nat) : Option Nat :=
  let digits :=
    if text.head? = some '+' ∧ text.tail.head? ≠ some '+' then text.tail else text
  if digits = [] ∨ digits.head? = some '_' then none
  else if digits.all fun character => character = '_' || digitValue character < radix then
    some (valueOf radix (digits.filter (· ≠ '_')))
  else none

/-- The signed reader of the big-integer library. -/
def parseSignedBytes (text : List Char) (radix : Nat) : Option Int :=
  if text.head? = some '-' then
    let magnitude := if text.tail.head? = some '+' then text else text.tail
    (parseUnsignedBytes magnitude radix).map fun value => -(value : Int)
  else (parseUnsignedBytes text radix).map fun value => (value : Int)

def parseSignedInteger (text : List Char) : Except ExactNumberError Int :=
  if text = [] ∨ text = ['-'] ∨ text = ['+'] then .error ⟨"exact Number integer is empty"⟩
  else if text.head? = some '+' then
    .error ⟨"exact Number text does not accept a leading plus sign"⟩
  else okOr (parseSignedBytes text 10) ⟨"`" ++ String.ofList text ++ "` is not an exact integer"⟩

def parseUnsignedInteger (text : List Char) : Except ExactNumberError Nat :=
  if text = [] then .error ⟨"exact Number denominator is empty"⟩
  else okOr (parseUnsignedBytes text 10)
    ⟨"`" ++ String.ofList text ++ "` is not a positive integer"⟩

/-- The value fits a 32-bit signed integer. -/
def FitsI32 (value : Int) : Prop :=
  -2 ^ 31 ≤ value ∧ value < 2 ^ 31

instance : DecidablePred FitsI32 :=
  fun _ => inferInstanceAs (Decidable (_ ∧ _))

/-- The 32-bit signed integer reader of the standard library. -/
def parseI32 (text : List Char) : Option Int :=
  let digits := if text.head? = some '-' ∨ text.head? = some '+' then text.tail else text
  if digits = [] ∨ !digits.all isAsciiDigit then none
  else
    let value : Int := if text.head? = some '-' then -valueOf 10 digits else valueOf 10 digits
    if FitsI32 value then some value else none

def isExponentMarker (character : Char) : Bool :=
  character = 'e' || character = 'E'

/-- The mantissa and the text behind the exponent marker. -/
def splitExponent (text : List Char) : Except ExactNumberError (List Char × Option (List Char)) :=
  match text.findIdx? isExponentMarker with
  | some index =>
    if (text.drop (index + 1)).any isExponentMarker then
      .error ⟨"exact Number text repeats the exponent marker"⟩
    else .ok (text.take index, some (text.drop (index + 1)))
  | none => .ok (text, none)

def parseExponent : Option (List Char) → Except ExactNumberError Int
  | some value =>
    if value ≠ [] then okOr (parseI32 value) ⟨"exact Number exponent is out of range"⟩
    else .error ⟨"exact Number exponent is empty"⟩
  | none => .ok 0

/-- Magnitude and denominator of digits with a decimal scale. -/
def scaledParts (magnitude : Nat) (scale : Int) : Nat × Nat :=
  let power := 10 ^ scale.natAbs
  if 0 ≤ scale then (magnitude, power) else (magnitude * power, 1)

/-- The ratio of a digit string, a decimal scale and a sign. -/
def scaledRatio (magnitude : Nat) (scale : Int) (negative : Bool)
    (profile : ExactNumberSemanticProfileV1) : Except ExactNumberError ExactNumber :=
  if 2 ^ 32 ≤ scale.natAbs then .error ⟨"exact Number decimal scale is out of range"⟩
  else if profile.maxParsedDigits < scale.natAbs then
    .error ⟨"exact Number decimal scale exceeds the parsed digit budget"⟩
  else
    let parts := scaledParts magnitude scale
    fromRatioWithProfile (if negative then -(parts.1 : Int) else parts.1) parts.2
      profile

def parseDecimal (text : List Char) (profile : ExactNumberSemanticProfileV1) :
    Except ExactNumberError ExactNumber := do
  let (mantissa, exponentText) ← splitExponent text
  let exponent ← parseExponent exponentText
  let negative := mantissa.head? = some '-'
  let unsigned := stripMinus mantissa
  reject (unsigned.head? = some '+' ∨ mantissa.head? = some '+')
    ⟨"exact Number text does not accept a leading plus sign"⟩
  let parts ← splitOnceUnique unsigned '.'
  let (whole, fraction) := parts.getD (unsigned, [])
  reject (whole = [] ∧ fraction = []) ⟨"exact Number mantissa is empty"⟩
  reject (!whole.all isAsciiDigit || !fraction.all isAsciiDigit)
    ⟨"`" ++ String.ofList text ++ "` is not an exact decimal Number"⟩
  let magnitude ← okOr (parseUnsignedBytes (whole ++ fraction) 10)
    ⟨"`" ++ String.ofList text ++ "` is not an exact decimal Number"⟩
  reject (2 ^ 63 ≤ fraction.length) ⟨"exact Number decimal scale is out of range"⟩
  scaledRatio magnitude (fraction.length - exponent) negative profile

def parseWithProfile (text : List Char) (profile : ExactNumberSemanticProfileV1) :
    Except ExactNumberError ExactNumber := do
  reject (text = [] ∨ trim text ≠ text)
    ⟨"exact Number text must be nonempty and contain no surrounding whitespace"⟩
  let digitCount := text.countP isAsciiDigit
  reject (digitCount = 0 ∨ profile.maxParsedDigits < digitCount)
    ⟨"exact Number parsed digit budget exceeded: " ++ toString digitCount ++ " > " ++
      toString profile.maxParsedDigits⟩
  match ← splitOnceUnique text '/' with
  | some (left, right) =>
    reject (left.any (['.', 'e', 'E'].contains ·) ||
        right.any (['.', 'e', 'E', '+', '-'].contains ·))
      ⟨"canonical fraction text requires signed integer numerator and positive integer denominator"⟩
    let numerator ← parseSignedInteger left
    let denominator ← parseUnsignedInteger right
    fromRatioWithProfile numerator denominator profile
  | none => parseDecimal text profile

/-- Whether a message contains a phrase. -/
def contains (message phrase : String) : Bool :=
  phrase.toList <:+: message.toList

/-- The reason of a conversion failure is read off its message. -/
def classify (message : String) : ExactNumberParseReason :=
  if contains message "denominator must be positive" then .zeroDenominator
  else if contains message "budget" || contains message "out of range" ||
      contains message "exceeds" then .resourceLimit
  else .invalidSyntax

/-- The radix announced by a base prefix. -/
def declaredPrefixRadix (unsigned : List Char) : Option Nat :=
  if unsigned.take 2 = ['0', 'b'] ∨ unsigned.take 2 = ['0', 'B'] then some 2
  else if unsigned.take 2 = ['0', 'o'] ∨ unsigned.take 2 = ['0', 'O'] then some 8
  else if unsigned.take 2 = ['0', 'x'] ∨ unsigned.take 2 = ['0', 'X'] then some 16
  else none

/-- Rejects the first character that is not a digit of the radix. -/
def validateRadixDigits (digits : List Char) (radix firstPosition : Nat) :
    Except ExactNumberParseError Unit :=
  digits.zipIdx.forM fun (character, offset) =>
    reject (¬ digitValue character < radix)
      (parseFailure .invalidDigit (firstPosition + offset)
        ("`" ++ toString character ++ "` is not a base-" ++ toString radix ++ " digit"))

def parseRadixNumber (text : List Char) (radix : Nat) (profile : ExactNumberSemanticProfileV1) :
    Except ExactNumberParseError ExactNumber := do
  reject (¬ (2 ≤ radix ∧ radix ≤ 36))
    (parseFailure .invalidRadix 1 ("radix " ++ toString radix ++ " is outside 2..=36"))
  reject (text = []) (parseFailure .empty 1 "Number text is empty")
  forSome (text.findIdx? isWhitespace) fun offset =>
    .error (parseFailure .whitespace (offset + 1) "strict Number text cannot contain whitespace")
  reject (text.head? = some '+')
    (parseFailure .leadingPlus 1 "strict Number text does not accept a leading plus sign")
  let negative := text.head? = some '-'
  let unsigned := stripMinus text
  let declared := declaredPrefixRadix unsigned
  forSome declared fun declared =>
    reject (declared ≠ radix)
      (parseFailure .invalidRadix (signOffset text + 2)
        ("base-" ++ toString declared ++ " prefix does not match requested radix " ++
          toString radix))
  let prefixLength := if declared.isSome then 2 else 0
  let digits := unsigned.drop prefixLength
  reject (digits = []) (parseFailure .empty (text.length + 1) "radix Number contains no digits")
  validateRadixDigits digits radix (signOffset text + prefixLength + 1)
  validateDigitBudget digits.length text.length profile
  let magnitude ← okOr (parseUnsignedBytes digits radix)
    (parseFailure .invalidDigit (signOffset text + prefixLength + 1)
      ("Number is not valid base-" ++ toString radix ++ " text"))
  let numerator : Int := if negative then -magnitude else magnitude
  (fromRatioWithProfile numerator 1 profile).mapError fun fault =>
    parseFailure .resourceLimit 1 fault.message

namespace ExactNumber

/-- Parses the complete text as one exact number. -/
def parseStrictWithProfile (text : List Char) (radix : Option Nat)
    (profile : ExactNumberSemanticProfileV1) : Except ExactNumberParseError ExactNumber :=
  match radix with
  | some radix => parseRadixNumber text radix profile
  | none => do
    validateDefaultNumberSyntax text profile
    (parseWithProfile text profile).mapError fun fault =>
      parseFailure (classify fault.message) 1 fault.message

/-- Strict parsing under the default profile. -/
def parseStrict (text : List Char) (radix : Option Nat) :
    Except ExactNumberParseError ExactNumber :=
  parseStrictWithProfile text radix .default

end ExactNumber

end BoonCircuit.Data
