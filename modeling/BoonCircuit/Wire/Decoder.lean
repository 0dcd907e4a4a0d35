import BoonCircuit.Wire.Format

/-!
# The wire decoder

The decoder walks a cursor over the input, counts value nodes and applies the
limits while it reads.  A value at the last admitted depth cannot open another
one, so the recursion of `Decoder.value` runs on the number of admitted depths
that remain; the depth check fails exactly when none does.  Collections are read
by counted loops over their accumulator.
-/

namespace BoonCircuit.Wire

open Lib Data Checks

/-- Decoder state. -/
structure Decoder where
  bytes : List UInt8
  position : Nat
  limits : Limits
  nodes : Nat

namespace Decoder

def byte (decoder : Decoder) : Except WireError (UInt8 × Decoder) :=
  match decoder.bytes[decoder.position]? with
  | some byte => .ok (byte, { decoder with position := decoder.position + 1 })
  | none => .error .unexpectedEnd

def read (length : Nat) (decoder : Decoder) : Except WireError (List UInt8 × Decoder) := do
  let endPosition ← checkedAdd decoder.position length
  if endPosition ≤ decoder.bytes.length then
    return ((decoder.bytes.drop decoder.position).take length,
      { decoder with position := endPosition })
  else throw .unexpectedEnd

def remaining (decoder : Decoder) : Nat :=
  decoder.bytes.length - decoder.position

/-- The loop over the bytes of a length; the first argument counts the indices left. -/
def lengthFrom : Nat → Nat → Nat → Decoder → Except WireError (Nat × Decoder)
  | 0, _, _, _ => .error .varintOverflow
  | left + 1, index, value, decoder => do
    let (byte, decoder) ← decoder.byte
    let payload := (byte &&& 0x7f).toNat
    if index = 9 ∧ 1 < payload then throw .varintOverflow
    let value := value ||| payload <<< (index * 7)
    if byte &&& 0x80 = 0 then
      if 0 < index ∧ payload = 0 then throw .nonCanonicalVarint
      return (value, decoder)
    else lengthFrom left (index + 1) value decoder

def length (decoder : Decoder) : Except WireError (Nat × Decoder) :=
  lengthFrom 10 0 0 decoder

def collectionLen (minimumItemBytes : Nat) (decoder : Decoder) :
    Except WireError (Nat × Decoder) := do
  let (count, decoder) ← decoder.length
  checkLimit .collectionLength count decoder.limits.maxCollectionLength
  if decoder.remaining / minimumItemBytes < count then throw .unexpectedEnd
  return (count, decoder)

/-- A length within a limit and the bytes it counts. -/
def readFramed (kind : LimitKind) (limit : Limits → UInt64) (decoder : Decoder) :
    Except WireError (List UInt8 × Decoder) := do
  let (length, decoder) ← decoder.length
  checkLimit kind length (limit decoder.limits)
  decoder.read length

def text (decoder : Decoder) : Except WireError (String × Decoder) := do
  let (bytes, decoder) ← decoder.readFramed .textBytes Limits.maxTextBytes
  let text ← okOr (Text.fromUtf8 bytes) .invalidUtf8
  return (text, decoder)

def byteString (decoder : Decoder) : Except WireError (List UInt8 × Decoder) :=
  decoder.readFramed .byteStringBytes Limits.maxByteStringBytes

def number (decoder : Decoder) : Except WireError (ExactNumber × Decoder) := do
  let (code, decoder) ← decoder.byte
  let sign ← (ExactNumberSign.tryFrom code).mapError fun _ => WireError.nonCanonicalNumber
  let (numerator, decoder) ←
    decoder.readFramed .numberComponentBytes Limits.maxNumberComponentBytes
  let (denominator, decoder) ←
    decoder.readFramed .numberComponentBytes Limits.maxNumberComponentBytes
  let number ←
    (ExactNumber.fromCanonicalBytes sign numerator denominator).mapError
      fun _ => WireError.nonCanonicalNumber
  return (number, decoder)

def bits (decoder : Decoder) : Except WireError (Bits × Decoder) := do
  let (width, decoder) ← decoder.length
  if 2 ^ 32 ≤ width then throw .nonCanonicalBits
  checkLimit .bitsBytes (byteLen width) decoder.limits.maxBitsBytes
  let (bytes, decoder) ← decoder.read (byteLen width)
  let bits ← (Bits.fromCanonicalBytes width bytes).mapError fun _ => WireError.nonCanonicalBits
  return (bits, decoder)

/-- The depth and node checks that open every value. -/
def enter (depth : Nat) (decoder : Decoder) : Except WireError (Unit × Decoder) := do
  checkLimit .depth depth decoder.limits.maxDepth
  let nodes ← checkedAdd decoder.nodes 1
  checkLimit .nodes nodes decoder.limits.maxNodes
  return ((), { decoder with nodes := nodes })

/-- A loop of `count` steps over an accumulator. -/
def forCount {β : Type} (step : β → Decoder → Except WireError (β × Decoder)) :
    Nat → β → Decoder → Except WireError (β × Decoder)
  | 0, result, decoder => .ok (result, decoder)
  | count + 1, result, decoder => do
    let (result, decoder) ← step result decoder
    forCount step count result decoder

section Steps

variable (value : Decoder → Except WireError (Value × Decoder))

/-- One list element. -/
def listStep (values : List Value) (decoder : Decoder) :
    Except WireError (List Value × Decoder) := do
  let (item, decoder) ← value decoder
  return (values ++ [item], decoder)

/-- One field of an object or tag. -/
def fieldStep (fields : List (String × Value)) (decoder : Decoder) :
    Except WireError (List (String × Value) × Decoder) := do
  let (key, decoder) ← decoder.text
  if fields.getLast?.any fun previous => (Text.compareText previous.1 key).isGE then
    throw .nonCanonicalMapOrder
  let (item, decoder) ← value decoder
  return (Sorted.insertEntry Text.compareText key item fields, decoder)

/-- One map entry. -/
def entryStep (entries : List (Value × Value)) (decoder : Decoder) :
    Except WireError (List (Value × Value) × Decoder) := do
  let (key, decoder) ← value decoder
  if key.isKeySafe = false then throw .invalidMapKey
  if entries.getLast?.any fun previous => (Value.cmp previous.1 key).isGE then
    throw .nonCanonicalValueOrder
  let (item, decoder) ← value decoder
  return (Sorted.insertEntry Value.cmp key item entries, decoder)

/-- One set item. -/
def itemStep (items : List Value) (decoder : Decoder) :
    Except WireError (List Value × Decoder) := do
  let (item, decoder) ← value decoder
  if item.isKeySafe = false then throw .invalidSetItem
  if items.getLast?.any fun previous => (Value.cmp previous item).isGE then
    throw .nonCanonicalValueOrder
  return (Sorted.insertItem Value.cmp item items, decoder)

/-- The counted loop of a list. -/
def values (decoder : Decoder) : Except WireError (List Value × Decoder) := do
  let (count, decoder) ← decoder.collectionLen 1
  forCount (listStep value) count [] decoder

/-- The counted loop of a map. -/
def entries (decoder : Decoder) : Except WireError (List (Value × Value) × Decoder) := do
  let (count, decoder) ← decoder.collectionLen 2
  forCount (entryStep value) count [] decoder

/-- The counted loop of a set. -/
def items (decoder : Decoder) : Except WireError (List Value × Decoder) := do
  let (count, decoder) ← decoder.collectionLen 1
  forCount (itemStep value) count [] decoder

def fields (decoder : Decoder) : Except WireError (List (String × Value) × Decoder) := do
  let (count, decoder) ← decoder.collectionLen 2
  forCount (fieldStep value) count [] decoder

/-- The part of a value behind its tag, given a reader for the values one level down. -/
def body (tag : UInt8) (decoder : Decoder) : Except WireError (Value × Decoder) :=
  if tag = valueNumber then do
    let (number, decoder) ← decoder.number
    return (.number number, decoder)
  else if tag = valueText then do
    let (text, decoder) ← decoder.text
    return (.text text, decoder)
  else if tag = valueBytes then do
    let (bytes, decoder) ← decoder.byteString
    return (.bytes bytes, decoder)
  else if tag = valueList then do
    let (values, decoder) ← decoder.values value
    return (.list values, decoder)
  else if tag = valueObject then do
    let (fields, decoder) ← decoder.fields value
    return (.object fields, decoder)
  else if tag = valueTag then do
    let (tag, decoder) ← decoder.text
    let (fields, decoder) ← decoder.fields value
    return (.tag tag fields, decoder)
  else if tag = valueMap then do
    let (entries, decoder) ← decoder.entries value
    return (.map entries, decoder)
  else if tag = valueSet then do
    let (items, decoder) ← decoder.items value
    return (.set items, decoder)
  else if tag = valueBits then do
    let (bits, decoder) ← decoder.bits
    return (.bits bits, decoder)
  else .error (.unknownTag tag)

end Steps

/-- Reads a value at a depth with `levels` admitted depths left, this one included. -/
def value : Nat → Nat → Decoder → Except WireError (Value × Decoder)
  | 0, depth, decoder => .error (.limitExceeded .depth depth decoder.limits.maxDepth.toNat)
  | levels + 1, depth, decoder => do
    let ((), decoder) ← decoder.enter depth
    let (tag, decoder) ← decoder.byte
    body (value levels (depth + 1)) tag decoder

end Decoder

/-- The checks of the four header bytes. -/
def checkHeader (bytes : List UInt8) : Except WireError Unit :=
  if bytes.length < header.length then .error .unexpectedEnd
  else if bytes.take magic.length ≠ magic then .error .invalidMagic
  else match bytes[magic.length]? with
    | some version =>
      if version ≠ formatVersion then .error (.unsupportedVersion version) else .ok ()
    | none => .error .unexpectedEnd

/-- Decodes exactly one value with explicit resource limits. -/
def decodeWithLimits (bytes : List UInt8) (limits : Limits) : Except WireError Value := do
  checkLimit .totalBytes bytes.length limits.maxTotalBytes
  checkHeader bytes
  let (value, decoder) ← Decoder.value limits.maxDepth.toNat 1
    { bytes := bytes, position := header.length, limits := limits, nodes := 0 }
  if decoder.position = bytes.length then return value
  else throw (.trailingBytes (bytes.length - decoder.position))

example : decodeWithLimits [0x42, 0x57, 0x56, 5, 3, 2, 1, 1, 65, 7, 0] Limits.default =
    .ok (.list [.text "A", .set []]) := by decide

example : decodeWithLimits [0x42, 0x57, 0x56, 5, 3, 0x80, 0] Limits.default =
    .error .nonCanonicalVarint := by decide

end BoonCircuit.Wire
