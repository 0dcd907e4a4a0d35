import BoonCircuit.Data.Value
import BoonCircuit.Lib.Checks
import BoonCircuit.Lib.Varint

/-!
# The wire format of a value

Header, value tags, resource limits and errors of the version 5 wire format, and the
bytes of a value, its nodes and the conditions that the limits put on it, by recursion
on the value.  Encoder and decoder are both measured against this description.
Machine words are 64 bits wide, as on every target the workspace ships.
-/

namespace BoonCircuit.Wire

open Lib Data

/-- The three magic bytes `BWV`. -/
def magic : List UInt8 := [0x42, 0x57, 0x56]

def formatVersion : UInt8 := 5

/-- Magic bytes followed by the format version. -/
def header : List UInt8 := magic ++ [formatVersion]

def valueNumber : UInt8 := 0
def valueText : UInt8 := 1
def valueBytes : UInt8 := 2
def valueList : UInt8 := 3
def valueObject : UInt8 := 4
def valueTag : UInt8 := 5
def valueMap : UInt8 := 6
def valueSet : UInt8 := 7
def valueBits : UInt8 := 8

/-- Resource limits applied to both encoding and decoding. -/
structure Limits where
  maxTotalBytes : UInt64
  maxDepth : UInt64
  maxNodes : UInt64
  maxCollectionLength : UInt64
  maxTextBytes : UInt64
  maxByteStringBytes : UInt64
  maxBitsBytes : UInt64
  maxNumberComponentBytes : UInt64
  deriving DecidableEq

/-- The default limits. -/
def Limits.default : Limits where
  maxTotalBytes := 16 * 1024 * 1024
  maxDepth := 64
  maxNodes := 1000000
  maxCollectionLength := 1000000
  maxTextBytes := 1024 * 1024
  maxByteStringBytes := 8 * 1024 * 1024
  maxBitsBytes := 128 * 1024
  maxNumberComponentBytes := 128 * 1024

inductive LimitKind where
  | totalBytes
  | depth
  | nodes
  | collectionLength
  | textBytes
  | byteStringBytes
  | bitsBytes
  | numberComponentBytes
  deriving DecidableEq

inductive WireError where
  | invalidMagic
  | unsupportedVersion (version : UInt8)
  | unexpectedEnd
  | trailingBytes (count : Nat)
  | unknownTag (tag : UInt8)
  | invalidUtf8
  | nonCanonicalVarint
  | varintOverflow
  | lengthOverflow
  | nonCanonicalNumber
  | nonCanonicalBits
  | nonCanonicalMapOrder
  | nonCanonicalValueOrder
  | invalidMapKey
  | invalidSetItem
  | limitExceeded (kind : LimitKind) (actual maximum : Nat)
  deriving DecidableEq

/-- Rejects a measure above its limit. -/
def checkLimit (kind : LimitKind) (actual : Nat) (maximum : UInt64) : Except WireError Unit :=
  if maximum.toNat < actual then .error (.limitExceeded kind actual maximum.toNat) else .ok ()

theorem checkLimit_eq_ok_iff {kind : LimitKind} {actual : Nat} {maximum : UInt64} {done : Unit} :
    checkLimit kind actual maximum = .ok done ↔ actual ≤ maximum.toNat := by
  unfold checkLimit
  split <;> simp_all

/-- Addition on machine words. -/
def checkedAdd (left right : Nat) : Except WireError Nat :=
  if left + right < wordLimit then .ok (left + right) else .error .lengthOverflow

theorem checkedAdd_eq_ok_iff {left right sum : Nat} :
    checkedAdd left right = .ok sum ↔ left + right < wordLimit ∧ sum = left + right := by
  unfold checkedAdd
  split <;> simp_all [eq_comm]

theorem limit_lt_wordLimit (limit : UInt64) : limit.toNat < wordLimit :=
  limit.toNat_lt

/-- Minimal base-128 bytes of a length. -/
def lengthBytes (length : Nat) : List UInt8 :=
  Varint.encode 10 length

/-- A byte string behind its length. -/
def framed (bytes : List UInt8) : List UInt8 :=
  lengthBytes bytes.length ++ bytes

/-- Text behind its byte length. -/
def textBytes (text : String) : List UInt8 :=
  framed (Text.utf8Bytes text)

theorem lengthBytes_ne_nil (length : Nat) : lengthBytes length ≠ [] :=
  Varint.encode_ne_nil 9 length

theorem length_lengthBytes_pos (length : Nat) : 0 < (lengthBytes length).length :=
  List.length_pos_iff.mpr (lengthBytes_ne_nil length)

mutual

/-- The bytes of a value without the header. -/
def wireBytes : Value → List UInt8
  | .number number => [valueNumber] ++ ([number.sign.toByte] ++
      (framed number.numeratorMagnitudeBytes ++ framed number.denominatorBytes))
  | .text text => [valueText] ++ textBytes text
  | .bytes bytes => [valueBytes] ++ framed bytes
  | .list values => [valueList] ++ (lengthBytes values.length ++ wireBytesValues values)
  | .object fields => [valueObject] ++ (lengthBytes fields.length ++ wireBytesFields fields)
  | .tag tag fields =>
    [valueTag] ++ (textBytes tag ++ (lengthBytes fields.length ++ wireBytesFields fields))
  | .map entries => [valueMap] ++ (lengthBytes entries.length ++ wireBytesEntries entries)
  | .set items => [valueSet] ++ (lengthBytes items.length ++ wireBytesValues items)
  | .bits bits => [valueBits] ++ (lengthBytes bits.width ++ bits.bytes)

/-- The bytes of consecutive values. -/
def wireBytesValues : List Value → List UInt8
  | [] => []
  | value :: values => wireBytes value ++ wireBytesValues values

/-- The bytes of consecutive fields. -/
def wireBytesFields : List (String × Value) → List UInt8
  | [] => []
  | (key, value) :: fields => textBytes key ++ wireBytes value ++ wireBytesFields fields

/-- The bytes of consecutive map entries. -/
def wireBytesEntries : List (Value × Value) → List UInt8
  | [] => []
  | (key, value) :: entries => wireBytes key ++ wireBytes value ++ wireBytesEntries entries

end

mutual

/-- The number of recursive value nodes. -/
def nodeCount : Value → Nat
  | .number _ => 1
  | .text _ => 1
  | .bytes _ => 1
  | .list values => 1 + nodeCountValues values
  | .object fields => 1 + nodeCountFields fields
  | .tag _ fields => 1 + nodeCountFields fields
  | .map entries => 1 + nodeCountEntries entries
  | .set items => 1 + nodeCountValues items
  | .bits _ => 1

/-- Nodes of consecutive values. -/
def nodeCountValues : List Value → Nat
  | [] => 0
  | value :: values => nodeCount value + nodeCountValues values

/-- Nodes of consecutive fields; keys are not nodes. -/
def nodeCountFields : List (String × Value) → Nat
  | [] => 0
  | (_, value) :: fields => nodeCount value + nodeCountFields fields

/-- Nodes of consecutive map entries. -/
def nodeCountEntries : List (Value × Value) → Nat
  | [] => 0
  | (key, value) :: entries => nodeCount key + nodeCount value + nodeCountEntries entries

end

/-- A text within its limit. -/
def TextFits (limits : Limits) (text : String) : Prop :=
  (Text.utf8Bytes text).length ≤ limits.maxTextBytes.toNat

/-- A collection within its limit. -/
def CollectionFits (limits : Limits) (length : Nat) : Prop :=
  length ≤ limits.maxCollectionLength.toNat

/-- Both components of a number within their limit. -/
def NumberFits (limits : Limits) (number : ExactNumber) : Prop :=
  number.numeratorMagnitudeBytes.length ≤ limits.maxNumberComponentBytes.toNat ∧
    number.denominatorBytes.length ≤ limits.maxNumberComponentBytes.toNat

mutual

/-- The local conditions on a value at a depth: depth, component limits and key safety.
The total number of bytes and of nodes is measured on the whole message. -/
@[grind =]
def Fits (limits : Limits) : Value → Nat → Prop
  | .number number, depth => depth ≤ limits.maxDepth.toNat ∧ NumberFits limits number
  | .text text, depth => depth ≤ limits.maxDepth.toNat ∧ TextFits limits text
  | .bytes bytes, depth =>
    depth ≤ limits.maxDepth.toNat ∧ bytes.length ≤ limits.maxByteStringBytes.toNat
  | .list values, depth => depth ≤ limits.maxDepth.toNat ∧
      CollectionFits limits values.length ∧ FitsValues limits values (depth + 1)
  | .object fields, depth => depth ≤ limits.maxDepth.toNat ∧
      CollectionFits limits fields.length ∧ FitsFields limits fields (depth + 1)
  | .tag tag fields, depth => depth ≤ limits.maxDepth.toNat ∧ TextFits limits tag ∧
      CollectionFits limits fields.length ∧ FitsFields limits fields (depth + 1)
  | .map entries, depth => depth ≤ limits.maxDepth.toNat ∧
      CollectionFits limits entries.length ∧ FitsEntries limits entries (depth + 1)
  | .set items, depth => depth ≤ limits.maxDepth.toNat ∧
      CollectionFits limits items.length ∧ FitsItems limits items (depth + 1)
  | .bits bits, depth =>
    depth ≤ limits.maxDepth.toNat ∧ bits.bytes.length ≤ limits.maxBitsBytes.toNat

/-- Every list element fits. -/
def FitsValues (limits : Limits) : List Value → Nat → Prop
  | [], _ => True
  | value :: values, depth => Fits limits value depth ∧ FitsValues limits values depth

/-- Every field fits. -/
def FitsFields (limits : Limits) : List (String × Value) → Nat → Prop
  | [], _ => True
  | (key, value) :: fields, depth =>
    TextFits limits key ∧ Fits limits value depth ∧ FitsFields limits fields depth

/-- Every map entry fits and has a key-safe key. -/
def FitsEntries (limits : Limits) : List (Value × Value) → Nat → Prop
  | [], _ => True
  | (key, value) :: entries, depth => key.isKeySafe = true ∧ Fits limits key depth ∧
      Fits limits value depth ∧ FitsEntries limits entries depth

/-- Every set item fits and is key-safe. -/
def FitsItems (limits : Limits) : List Value → Nat → Prop
  | [], _ => True
  | item :: items, depth =>
    item.isKeySafe = true ∧ Fits limits item depth ∧ FitsItems limits items depth

end

theorem wireBytesValues_eq_flatMap (values : List Value) :
    wireBytesValues values = values.flatMap wireBytes := by
  induction values with
  | nil => rfl
  | cons value values ih => simp [wireBytesValues, ih]

theorem wireBytesFields_eq_flatMap (fields : List (String × Value)) :
    wireBytesFields fields =
      fields.flatMap fun field => textBytes field.1 ++ wireBytes field.2 := by
  induction fields with
  | nil => rfl
  | cons field fields ih => simp [wireBytesFields, ih]

theorem wireBytesEntries_eq_flatMap (entries : List (Value × Value)) :
    wireBytesEntries entries =
      entries.flatMap fun entry => wireBytes entry.1 ++ wireBytes entry.2 := by
  induction entries with
  | nil => rfl
  | cons entry entries ih => simp [wireBytesEntries, ih]

theorem nodeCountValues_eq_sum (values : List Value) :
    nodeCountValues values = (values.map nodeCount).sum := by
  induction values with
  | nil => rfl
  | cons value values ih => simp [nodeCountValues, ih]

theorem nodeCountFields_eq_sum (fields : List (String × Value)) :
    nodeCountFields fields = (fields.map fun field => nodeCount field.2).sum := by
  induction fields with
  | nil => rfl
  | cons field fields ih => simp [nodeCountFields, ih]

theorem nodeCountEntries_eq_sum (entries : List (Value × Value)) :
    nodeCountEntries entries =
      (entries.map fun entry => nodeCount entry.1 + nodeCount entry.2).sum := by
  induction entries with
  | nil => rfl
  | cons entry entries ih => simp [nodeCountEntries, ih]

variable {limits : Limits} {fields : List (String × Value)} {depth : Nat}

theorem fits_tag_iff {tag : String} : Fits limits (.tag tag fields) depth ↔
      TextFits limits tag ∧ Fits limits (.object fields) depth := by
  exact and_left_comm

theorem fitsValues_iff {values : List Value} :
    FitsValues limits values depth ↔ ∀ value ∈ values, Fits limits value depth := by
  induction values with
  | nil => simp [FitsValues]
  | cons value values ih => simp [FitsValues, ih]

theorem fitsFields_iff :
    FitsFields limits fields depth ↔
      ∀ field ∈ fields, TextFits limits field.1 ∧ Fits limits field.2 depth := by
  induction fields with
  | nil => simp [FitsFields]
  | cons field fields ih => simp [FitsFields, ih, and_assoc]

theorem fitsEntries_iff {entries : List (Value × Value)} :
    FitsEntries limits entries depth ↔ ∀ entry ∈ entries, entry.1.isKeySafe = true ∧
      Fits limits entry.1 depth ∧ Fits limits entry.2 depth := by
  induction entries with
  | nil => simp [FitsEntries]
  | cons entry entries ih => simp [FitsEntries, ih, and_assoc]

theorem fitsItems_iff {items : List Value} :
    FitsItems limits items depth ↔
      ∀ item ∈ items, item.isKeySafe = true ∧ Fits limits item depth := by
  induction items with
  | nil => simp [FitsItems]
  | cons item items ih => simp [FitsItems, ih, and_assoc]

theorem length_wireBytes_pos (value : Value) : 0 < (wireBytes value).length := by
  cases value <;> simp [wireBytes]

theorem nodeCount_pos (value : Value) : 0 < nodeCount value := by
  cases value <;> simp [nodeCount]

theorem length_textBytes_pos (text : String) : 0 < (textBytes text).length := by
  rw [textBytes, framed, List.length_append]
  exact Nat.add_pos_left (length_lengthBytes_pos _) _

/-- The message of a value: header and value bytes. -/
def message (value : Value) : List UInt8 :=
  header ++ wireBytes value

/-- The conditions on a whole message. -/
def Encodable (limits : Limits) (value : Value) : Prop :=
  (message value).length ≤ limits.maxTotalBytes.toNat ∧
    nodeCount value ≤ limits.maxNodes.toNat ∧ Fits limits value 1

end BoonCircuit.Wire
