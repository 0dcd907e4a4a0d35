import BoonCircuit.Wire.Format

/-!
# The wire encoder

The encoder appends to a byte buffer, counts value nodes and checks every limit
before it writes.  The loops over the elements of a collection are functions of
their own, so that the recursion follows the value.
-/

namespace BoonCircuit.Wire

open Lib Data

/-- Encoder state. -/
structure Encoder where
  bytes : List UInt8
  limits : Limits
  nodes : Nat

namespace Encoder

def write (bytes : List UInt8) (encoder : Encoder) : Except WireError Encoder := do
  let newLen ← checkedAdd encoder.bytes.length bytes.length
  checkLimit .totalBytes newLen encoder.limits.maxTotalBytes
  return { encoder with bytes := encoder.bytes ++ bytes }

def byte (byte : UInt8) (encoder : Encoder) : Except WireError Encoder :=
  encoder.write [byte]

def length (length : Nat) (encoder : Encoder) : Except WireError Encoder :=
  encoder.write (Varint.encode 10 length)

def collectionLen (length : Nat) (encoder : Encoder) : Except WireError Encoder := do
  checkLimit .collectionLength length encoder.limits.maxCollectionLength
  encoder.length length

def text (text : String) (encoder : Encoder) : Except WireError Encoder := do
  checkLimit .textBytes (Text.utf8Bytes text).length encoder.limits.maxTextBytes
  let encoder ← encoder.length (Text.utf8Bytes text).length
  encoder.write (Text.utf8Bytes text)

/-- The depth and node checks that open every value. -/
def enter (depth : Nat) (encoder : Encoder) : Except WireError Encoder := do
  checkLimit .depth depth encoder.limits.maxDepth
  let nodes ← checkedAdd encoder.nodes 1
  checkLimit .nodes nodes encoder.limits.maxNodes
  return { encoder with nodes := nodes }

/-- The body of a number after its tag. -/
def number (number : ExactNumber) (encoder : Encoder) : Except WireError Encoder := do
  let encoder ← encoder.byte number.sign.toByte
  let numerator := number.numeratorMagnitudeBytes
  let denominator := number.denominatorBytes
  checkLimit .numberComponentBytes numerator.length encoder.limits.maxNumberComponentBytes
  checkLimit .numberComponentBytes denominator.length encoder.limits.maxNumberComponentBytes
  let encoder ← encoder.length numerator.length
  let encoder ← encoder.write numerator
  let encoder ← encoder.length denominator.length
  encoder.write denominator

mutual

def value : Value → Nat → Encoder → Except WireError Encoder
  | .number number, depth, encoder => do
    let encoder ← encoder.enter depth
    let encoder ← encoder.byte valueNumber
    encoder.number number
  | .text text, depth, encoder => do
    let encoder ← encoder.enter depth
    let encoder ← encoder.byte valueText
    encoder.text text
  | .bytes bytes, depth, encoder => do
    let encoder ← encoder.enter depth
    let encoder ← encoder.byte valueBytes
    checkLimit .byteStringBytes bytes.length encoder.limits.maxByteStringBytes
    let encoder ← encoder.length bytes.length
    encoder.write bytes
  | .list values, depth, encoder => do
    let encoder ← encoder.enter depth
    let encoder ← encoder.byte valueList
    let encoder ← encoder.collectionLen values.length
    Encoder.values values (depth + 1) encoder
  | .object fields, depth, encoder => do
    let encoder ← encoder.enter depth
    let encoder ← encoder.byte valueObject
    let encoder ← encoder.collectionLen fields.length
    Encoder.fields fields (depth + 1) encoder
  | .tag tag fields, depth, encoder => do
    let encoder ← encoder.enter depth
    let encoder ← encoder.byte valueTag
    let encoder ← encoder.text tag
    let encoder ← encoder.collectionLen fields.length
    Encoder.fields fields (depth + 1) encoder
  | .map entries, depth, encoder => do
    let encoder ← encoder.enter depth
    let encoder ← encoder.byte valueMap
    let encoder ← encoder.collectionLen entries.length
    Encoder.entries entries (depth + 1) encoder
  | .set items, depth, encoder => do
    let encoder ← encoder.enter depth
    let encoder ← encoder.byte valueSet
    let encoder ← encoder.collectionLen items.length
    Encoder.items items (depth + 1) encoder
  | .bits bits, depth, encoder => do
    let encoder ← encoder.enter depth
    let encoder ← encoder.byte valueBits
    let encoder ← encoder.length bits.width
    checkLimit .bitsBytes bits.bytes.length encoder.limits.maxBitsBytes
    encoder.write bits.bytes

/-- The loop over list elements. -/
def values : List Value → Nat → Encoder → Except WireError Encoder
  | [], _, encoder => .ok encoder
  | value :: values, depth, encoder => do
    let encoder ← Encoder.value value depth encoder
    Encoder.values values depth encoder

/-- The loop over object and tag fields. -/
def fields : List (String × Value) → Nat → Encoder → Except WireError Encoder
  | [], _, encoder => .ok encoder
  | (key, value) :: fields, depth, encoder => do
    let encoder ← encoder.text key
    let encoder ← Encoder.value value depth encoder
    Encoder.fields fields depth encoder

/-- The loop over map entries. -/
def entries : List (Value × Value) → Nat → Encoder → Except WireError Encoder
  | [], _, encoder => .ok encoder
  | (key, value) :: entries, depth, encoder => do
    if key.isKeySafe = false then throw .invalidMapKey
    let encoder ← Encoder.value key depth encoder
    let encoder ← Encoder.value value depth encoder
    Encoder.entries entries depth encoder

/-- The loop over set items. -/
def items : List Value → Nat → Encoder → Except WireError Encoder
  | [], _, encoder => .ok encoder
  | item :: items, depth, encoder => do
    if item.isKeySafe = false then throw .invalidSetItem
    let encoder ← Encoder.value item depth encoder
    Encoder.items items depth encoder

end

end Encoder

/-- Encodes one value with explicit resource limits. -/
def encodeWithLimits (value : Value) (limits : Limits) : Except WireError (List UInt8) := do
  let encoder ← Encoder.write header { bytes := [], limits := limits, nodes := 0 }
  let encoder ← Encoder.value value 1 encoder
  return encoder.bytes

example : encodeWithLimits (.list [.text "A", .set []]) Limits.default =
    .ok [0x42, 0x57, 0x56, 5, 3, 2, 1, 1, 65, 7, 0] := by decide

end BoonCircuit.Wire
