import BoonCircuit.Data.NumberOrder
import BoonCircuit.Lib.Checks

/-!
# Keys of ordered list indexes

A schema gives every component of a key a kind and a direction, and encodes the key as
one byte string: each component is a marker and a payload, complemented if it is
descending.  Sixteen-byte identities are numbers below `2 ^ 128`.  Byte strings of
keys compare as the keys do component by component, and a leading part of a key is
recognized by its bytes.
-/

namespace BoonCircuit.ListAccess

open Lib Data Checks

def keyCodecVersion : UInt8 := 3

def maxKeyComponents : Nat := 8

def numberMarker : UInt8 := 0x11

def textMarker : UInt8 := 0x22

def closedTagMarker : UInt8 := 0x44

/-- Identity of a closed fieldless tag type. -/
abbrev TagTypeId : Type := Fin (2 ^ 128)

def TagTypeId.asBytes (typeId : TagTypeId) : List UInt8 :=
  BigEndian.toFixedBytes 16 typeId

/-- An ordinal variant of one closed tag type. -/
structure ClosedTag where
  typeId : TagTypeId
  ordinal : Fin (2 ^ 32)
  deriving DecidableEq

/-- One component of a key. -/
inductive StructuralValue where
  | number (value : ExactNumber)
  | text (utf8 : List UInt8)
  | closedTag (tag : ClosedTag)
  deriving DecidableEq

/-- The kind of a component; a tag component admits one type only. -/
inductive KeyKind where
  | number
  | text
  | closedTag (typeId : TagTypeId)
  deriving DecidableEq

inductive Direction where
  | asc
  | desc
  deriving DecidableEq

structure KeyComponent where
  kind : KeyKind
  direction : Direction
  deriving DecidableEq

def StructuralValue.kind : StructuralValue → KeyKind
  | .number _ => .number
  | .text _ => .text
  | .closedTag tag => .closedTag tag.typeId

/-- A rejected schema, key or query prefix. -/
inductive KeyError where
  | invalidSchemaArity (actual maximum : Nat)
  | invalidKeyArity (actual maximum : Nat)
  | wrongKeyArity (expected actual : Nat)
  | wrongKeyKind (component : Nat) (expected actual : KeyKind)
  | prefixHasNoTarget (leading components : Nat)
  | prefixTargetIsNotText (component : Nat) (actual : KeyKind)
  deriving DecidableEq

/-- A key has at most eight components. -/
@[ext]
structure StructuralKey where
  parts : List StructuralValue
  length_parts : parts.length ≤ maxKeyComponents
  deriving DecidableEq

def StructuralKey.new (parts : List StructuralValue) : Except KeyError StructuralKey :=
  if tooLong : maxKeyComponents < parts.length then
    .error (.invalidKeyArity parts.length maxKeyComponents)
  else .ok ⟨parts, Nat.le_of_not_lt tooLong⟩

/-- Kinds and directions of the components of a key. -/
structure KeySchema where
  components : List KeyComponent
  length_components : components.length ≤ maxKeyComponents
  deriving DecidableEq

def KeySchema.new (components : List KeyComponent) : Except KeyError KeySchema :=
  if tooLong : maxKeyComponents < components.length then
    .error (.invalidSchemaArity components.length maxKeyComponents)
  else .ok ⟨components, Nat.le_of_not_lt tooLong⟩

/-- Text bytes with every zero byte escaped. -/
def encodeTextBytes : List UInt8 → List UInt8
  | [] => []
  | byte :: bytes => (if byte = 0 then [0, 255] else [byte]) ++ encodeTextBytes bytes

/-- The bytes of one component before its direction is applied. -/
def encodeValue (terminateText : Bool) : StructuralValue → List UInt8
  | .number value => numberMarker :: value.canonicalOrderBytes
  | .text utf8 => textMarker :: (encodeTextBytes utf8 ++ if terminateText then [0, 0] else [])
  | .closedTag tag =>
    closedTagMarker :: (tag.typeId.asBytes ++ BigEndian.toFixedBytes 4 tag.ordinal)

/-- Complements every byte of a descending component. -/
def directed (direction : Direction) (bytes : List UInt8) : List UInt8 :=
  match direction with
  | .asc => bytes
  | .desc => bytes.map fun byte => ~~~byte

def encodeComponent (specification : KeyComponent) (value : StructuralValue)
    (terminateText : Bool) : List UInt8 :=
  directed specification.direction (encodeValue terminateText value)

/-- The components one after the other. -/
def encodeComponents : List KeyComponent → List StructuralValue → List UInt8
  | specification :: components, value :: values =>
    encodeComponent specification value true ++ encodeComponents components values
  | _, _ => []

def validatePart (component : Nat) (expected : KeyKind) (value : StructuralValue) :
    Except KeyError Unit :=
  reject (expected ≠ value.kind) (.wrongKeyKind component expected value.kind)

/-- Checks the kinds of the components from a position on. -/
def validateParts (position : Nat) :
    List KeyComponent → List StructuralValue → Except KeyError Unit
  | specification :: components, value :: values => do
    validatePart position specification.kind value
    validateParts (position + 1) components values
  | _, _ => .ok ()

namespace KeySchema

def validateKey (schema : KeySchema) (key : StructuralKey) : Except KeyError Unit := do
  reject (key.parts.length ≠ schema.components.length)
    (.wrongKeyArity schema.components.length key.parts.length)
  validateParts 0 schema.components key.parts

def encode (schema : KeySchema) (key : StructuralKey) : Except KeyError (List UInt8) := do
  schema.validateKey key
  pure (keyCodecVersion :: encodeComponents schema.components key.parts)

def encodeStructuralPrefix (schema : KeySchema) (leading : List StructuralValue) :
    Except KeyError (List UInt8) := do
  reject (schema.components.length < leading.length)
    (.prefixHasNoTarget leading.length schema.components.length)
  validateParts 0 schema.components leading
  pure (keyCodecVersion :: encodeComponents schema.components leading)

end KeySchema

/-- The least byte string above every string with the given front. -/
def lexicographicSuccessor (bytes : List UInt8) : Option (List UInt8) :=
  match bytes.reverse.dropWhile (· = 255) with
  | [] => none
  | byte :: rest => some ((byte + 1) :: rest).reverse

open Lib Data Checks ExactNumber BigEndian List Std.LawfulEqOrd Std.OrientedOrd Precedes Direction

theorem compare_complement {left right : UInt8} (less : compare left right = .lt) :
    compare (~~~right) (~~~left) = .lt := by
  rw [Std.compare_eq_lt, UInt8.lt_iff_toNat_lt] at less ⊢
  have size : UInt8.size = 256 := rfl
  have rightLt := right.toNat_lt
  rw [UInt8.toNat_not, UInt8.toNat_not]
  omega

/-- Fixed-width big-endian strings are ordered as their numbers. -/
theorem precedes_toFixedBytes {width left right : Nat} (less : left < right)
    (fits : right < 256 ^ width) :
    Precedes (toFixedBytes width left) (toFixedBytes width right) := by
  induction width generalizing left right with
  | zero =>
    omega
  | succ width ih =>
    rw [toFixedBytes]
    by_cases same : left / 256 = right / 256
    · rw [same]
      apply append_left
      apply Precedes.head
      rw [Std.compare_eq_lt, UInt8.lt_iff_toNat_lt, UInt8.toNat_ofNat', UInt8.toNat_ofNat']
      omega
    · apply append_right
      apply ih
      · exact lt_of_le_of_ne (Nat.div_le_div_right less.le) same
      · rw [pow_succ'] at fits
        exact Nat.div_lt_of_lt_mul fits

/-- Escaped and terminated texts are ordered as their bytes. -/
theorem precedes_encodeTextBytes {left right : List UInt8} (less : compare left right = .lt) :
    Precedes (encodeTextBytes left ++ [0, 0]) (encodeTextBytes right ++ [0, 0]) := by
  induction left generalizing right with
  | nil =>
    cases right with
    | nil => cases less
    | cons byte =>
      by_cases zero : byte = 0
      · -- the escape of a zero byte is above the terminator
        rw [zero]
        exact .tail 0 (.head _ _ rfl)
      · have positive : compare 0 byte = .lt := by
          rw [Std.compare_eq_lt]
          exact UInt8.pos_iff_ne_zero.mpr zero
        rw [encodeTextBytes, encodeTextBytes, if_neg zero]
        exact .head _ _ positive
  | cons leftByte left ih =>
    cases right with
    | nil => cases less
    | cons rightByte right =>
      rw [show compare (leftByte :: left) (rightByte :: right) =
        (compare leftByte rightByte).then (compare left right) from
          List.compareLex_cons_cons, Ordering.then_eq_lt] at less
      rw [encodeTextBytes, encodeTextBytes]
      rcases less with smaller | ⟨same, less⟩
      · have order : leftByte < rightByte := Std.compare_eq_lt.mp smaller
        have rightNe : rightByte ≠ 0 := by
          rintro rfl
          exact absurd order (UInt8.not_lt.mpr (UInt8.zero_le))
        rw [if_neg rightNe]
        by_cases leftZero : leftByte = 0
        · rw [if_pos leftZero]
          rw [leftZero] at smaller
          exact .head _ _ smaller
        · rw [if_neg leftZero]
          exact .head _ _ smaller
      · rw [eq_of_compare same, append_assoc, append_assoc]
        exact (ih less).append_left _

/-- The last byte that can grow decides: the bytes behind it are dropped. -/
theorem lexicographicSuccessor_cons (byte : UInt8) (front : List UInt8) :
    lexicographicSuccessor (byte :: front) =
      ((lexicographicSuccessor front).map (byte :: ·)).or
        (if byte = 255 then none else some [byte + 1]) := by
  unfold lexicographicSuccessor
  rw [reverse_cons, dropWhile_append]
  cases front.reverse.dropWhile (· = 255) with
  | nil => by_cases full : byte = 255 <;> simp [full]
  | cons last rest => simp

theorem lt_succ_iff {byte : UInt8} (full : byte ≠ 255) {other : UInt8} :
    other < byte + 1 ↔ other ≤ byte := by
  have below := byte.toNat_lt
  have apart : byte.toNat ≠ 255 := fun same => full (UInt8.toNat.inj same)
  rw [UInt8.lt_iff_toNat_lt, UInt8.le_iff_toNat_le, UInt8.toNat_add]
  simp only [UInt8.reduceToNat]
  omega

/-- The strings from a front up to its successor are the strings with the front. -/
theorem isPrefix_iff_lexicographicSuccessor (front bytes : List UInt8) :
    (∀ upper, lexicographicSuccessor front = some upper →
        (front ≤ bytes ∧ bytes < upper ↔ front <+: bytes)) ∧
      (lexicographicSuccessor front = none → (front ≤ bytes ↔ front <+: bytes)) := by
  induction front generalizing bytes with
  | nil => simp [lexicographicSuccessor]
  | cons byte front ih =>
    rw [lexicographicSuccessor_cons]
    cases bytes with
    | nil => simp
    | cons head bytes =>
      obtain ⟨bounded, unbounded⟩ := ih bytes
      rw [cons_le_cons_iff, cons_prefix_cons]
      cases grown : lexicographicSuccessor front with
      | some upper =>
        refine ⟨?_, nofun⟩
        rintro _ ⟨⟩
        rw [cons_lt_cons_iff, ← bounded upper grown]
        constructor
        · rintro ⟨less | ⟨rfl, above⟩, more | ⟨same, below⟩⟩
          · exact absurd more (UInt8.lt_asymm less)
          · exact absurd same.symm (UInt8.ne_of_lt less)
          · exact absurd more (UInt8.lt_irrefl _)
          · exact ⟨rfl, above, below⟩
        · rintro ⟨rfl, above, below⟩
          exact ⟨.inr ⟨rfl, above⟩, .inr ⟨rfl, below⟩⟩
      | none =>
        rw [← unbounded grown]
        by_cases full : byte = 255
        · refine ⟨by simp [full], fun _ => or_iff_right ?_⟩
          rw [full, UInt8.not_lt]
          exact Nat.le_of_lt_succ head.toNat_lt
        · refine ⟨?_, by simp [full]⟩
          intro upper succeeds
          obtain rfl : [byte + 1] = upper := by simpa [full] using succeeds
          rw [cons_lt_cons_iff, lt_succ_iff full]
          constructor
          · rintro ⟨less | equal, below | ⟨_, impossible⟩⟩
            · exact absurd less (UInt8.not_lt.mpr below)
            · cases impossible
            · exact equal
            · cases impossible
          · rintro ⟨rfl, above⟩
            exact ⟨.inr ⟨rfl, above⟩, .inl (UInt8.le_refl _)⟩

theorem isPrefix_iff_lexicographicSuccessor_full :
    lexicographicSuccessor [1, 255] = some [2] ∧
      (([1, 255] : List UInt8) ≤ [1, 255, 0] ∧ ([1, 255, 0] : List UInt8) < [2] ↔
        ([1, 255] : List UInt8) <+: [1, 255, 0]) :=
  ⟨rfl, (isPrefix_iff_lexicographicSuccessor [1, 255] [1, 255, 0]).1 [2] rfl⟩

/-- The order of closed tags. -/
def ClosedTag.compareTags (left right : ClosedTag) : Ordering :=
  (compare left.typeId right.typeId).then (compare left.ordinal right.ordinal)

/-- The order of two values; values of different kinds are not compared. -/
def StructuralValue.compareValues : StructuralValue → StructuralValue → Ordering
  | .number left, .number right => compare left.toRat right.toRat
  | .text left, .text right => compare left right
  | .closedTag left, .closedTag right => left.compareTags right
  | _, _ => .eq

/-- Reverses the order of a descending component. -/
def Direction.apply (direction : Direction) (order : Ordering) : Ordering :=
  match direction with
  | .asc => order
  | .desc => order.swap

/-- Component-wise comparison in the directions of the schema. -/
def compareParts : List KeyComponent → List StructuralValue → List StructuralValue → Ordering
  | specification :: components, left :: lefts, right :: rights =>
    (specification.direction.apply (left.compareValues right)).then
      (compareParts components lefts rights)
  | _, _, _ => .eq

theorem Direction.apply_eq_eq_iff {direction : Direction} {order : Ordering} :
    direction.apply order = .eq ↔ order = .eq := by
  cases direction <;> cases order <;> simp [apply]

theorem compareTags_swap (left right : ClosedTag) :
    (left.compareTags right).swap = right.compareTags left := by
  rw [ClosedTag.compareTags, Ordering.swap_then, ← eq_swap, ← eq_swap]
  rfl

theorem compareValues_swap (left right : StructuralValue) :
    (left.compareValues right).swap = right.compareValues left := by
  cases left <;> cases right <;> try rfl
  case number.number left right => exact (eq_swap).symm
  case text.text left right => exact (eq_swap).symm
  case closedTag.closedTag left right => exact compareTags_swap left right

variable {left right : StructuralValue} {components : List KeyComponent}
  {values lefts rights : List StructuralValue}

theorem eq_of_compareValues (kinds : left.kind = right.kind)
    (same : left.compareValues right = .eq) : left = right := by
  cases left <;> cases right <;> try (cases kinds; done)
  case number.number left right =>
    have equal : compare left right = .eq := (compare_eq_compare_toRat left right).trans same
    rw [eq_of_compare equal]
  case text.text left right =>
    have equal : compare left right = .eq := same
    rw [eq_of_compare equal]
  case closedTag.closedTag left right =>
    have equal : left.compareTags right = .eq := same
    rw [ClosedTag.compareTags, Ordering.then_eq_eq] at equal
    obtain ⟨leftType, leftOrdinal⟩ := left
    obtain ⟨rightType, rightOrdinal⟩ := right
    have types : leftType = rightType := eq_of_compare equal.1
    have ordinals : leftOrdinal = rightOrdinal := eq_of_compare equal.2
    rw [types, ordinals]

/-- Encoded values of one kind are ordered as the values. -/
theorem precedes_encodeValue (kinds : left.kind = right.kind)
    (less : left.compareValues right = .lt) :
    Precedes (encodeValue true left) (encodeValue true right) := by
  cases left <;> cases right <;> try (cases kinds; done)
  case number.number left right =>
    apply Precedes.tail
    apply orderCode_canonicalOrderBytes
    rw [compare_eq_compare_toRat]
    exact less
  case text.text left right => exact .tail _ (precedes_encodeTextBytes less)
  case closedTag.closedTag left right =>
    have tags : left.compareTags right = .lt := less
    rw [ClosedTag.compareTags, Ordering.then_eq_lt] at tags
    apply Precedes.tail
    rcases tags with types | ⟨types, ordinals⟩
    · apply append_right
      exact precedes_toFixedBytes (Std.compare_eq_lt.mp types) right.typeId.isLt
    · have sameType : left.typeId = right.typeId := eq_of_compare types
      rw [sameType]
      apply append_left
      exact precedes_toFixedBytes (Std.compare_eq_lt.mp ordinals) right.ordinal.isLt

theorem precedes_encodeComponent {specification : KeyComponent} (kinds : left.kind = right.kind)
    (less : specification.direction.apply (left.compareValues right) = .lt) :
    Precedes (encodeComponent specification left true)
      (encodeComponent specification right true) := by
  unfold encodeComponent
  cases direction : specification.direction with
  | asc =>
    rw [direction] at less
    exact precedes_encodeValue kinds less
  | desc =>
    rw [direction] at less
    have swapped : right.compareValues left = .lt := by
      rw [← compareValues_swap]
      exact less
    apply (precedes_encodeValue kinds.symm swapped).map_mirror
    intro _ _ _ _
    exact compare_complement

/-- The values have the kinds of the leading components. -/
def KindsMatch : List KeyComponent → List StructuralValue → Prop
  | _, [] => True
  | [], _ :: _ => False
  | specification :: components, value :: values =>
    specification.kind = value.kind ∧ KindsMatch components values

theorem validateParts_eq_ok_iff {position : Nat} {done : Unit}
    (short : values.length ≤ components.length) :
    validateParts position components values = .ok done ↔ KindsMatch components values := by
  induction components generalizing position values with
  | nil =>
    rw [length_nil, Nat.le_zero, length_eq_zero_iff] at short
    simp [short, validateParts, KindsMatch]
  | cons specification components ih =>
    cases values with
    | nil => simp [validateParts, KindsMatch]
    | cons =>
      rw [validateParts, check_bind_eq_ok_iff, validatePart, reject_eq_ok_iff,
        not_not, ih (Nat.le_of_succ_le_succ short), KindsMatch]

theorem KindsMatch.length_le
    (kinds : KindsMatch components values) : values.length ≤ components.length := by
  fun_induction KindsMatch components values with
  | case1 => exact Nat.zero_le _
  | case2 => exact kinds.elim
  | case3 _ _ _ _ ih => exact Nat.succ_le_succ (ih kinds.2)

theorem KindsMatch.take (kinds : KindsMatch components values) (count : Nat) :
    KindsMatch components (values.take count) := by
  fun_induction KindsMatch components values generalizing count with
  | case1 => simp [KindsMatch]
  | case2 => exact kinds.elim
  | case3 _ _ _ _ ih =>
    cases count with
    | zero => simp [KindsMatch]
    | succ count => exact ⟨kinds.1, ih kinds.2 count⟩

/-- The bytes of a list of components begin with the bytes of its leading part. -/
theorem encodeComponents_take_append (components : List KeyComponent)
    (values : List StructuralValue) (count : Nat) :
    encodeComponents components values = encodeComponents components (values.take count) ++
      encodeComponents (components.drop count) (values.drop count) := by
  induction components generalizing values count with
  | nil => simp [encodeComponents]
  | cons specification components ih =>
    cases values with
    | nil => simp [encodeComponents]
    | cons =>
      cases count with
      | zero => simp [encodeComponents]
      | succ =>
        rw [take_succ_cons, drop_succ_cons, drop_succ_cons, encodeComponents,
          encodeComponents, append_assoc, ← ih]

/-- Component lists of one length with a smaller left side have a first difference. -/
theorem precedes_encodeComponents (leftKinds : KindsMatch components lefts)
    (rightKinds : KindsMatch components rights) (less : compareParts components lefts rights = .lt)
    : Precedes (encodeComponents components lefts) (encodeComponents components rights) := by
  fun_induction compareParts components lefts rights with
  | case1 specification components left lefts right rights ih =>
    have kinds : left.kind = right.kind := leftKinds.1.symm.trans rightKinds.1
    rw [Ordering.then_eq_lt] at less
    rcases less with smaller | ⟨same, less⟩
    · exact (precedes_encodeComponent kinds smaller).append_right _ _
    · rw [eq_of_compareValues kinds (apply_eq_eq_iff.mp same)]
      exact (ih leftKinds.2 rightKinds.2 less).append_left _
  | case2 => cases less

theorem compareParts_swap (components : List KeyComponent) (lefts rights : List StructuralValue) :
    (compareParts components lefts rights).swap = compareParts components rights lefts := by
  fun_induction compareParts components lefts rights with
  | case1 specification components left lefts right rights ih =>
    rw [compareParts, Ordering.swap_then, ih]
    cases specification.direction with
    | asc | desc => rw [apply, compareValues_swap]; rfl
  | case2 components lefts rights apart =>
    rw [compareParts]
    · rfl
    · exact fun _ _ _ _ _ _ first second third => apart _ _ _ _ _ _ first third second

theorem eq_of_compareParts (leftKinds : KindsMatch components lefts)
    (rightKinds : KindsMatch components rights) (lengths : lefts.length = rights.length)
    (same : compareParts components lefts rights = .eq) : lefts = rights := by
  fun_induction compareParts components lefts rights with
  | case1 specification components left lefts right rights ih =>
    rw [Ordering.then_eq_eq] at same
    have head : left = right := eq_of_compareValues (leftKinds.1.symm.trans rightKinds.1)
      (apply_eq_eq_iff.mp same.1)
    rw [head, ih leftKinds.2 rightKinds.2 (Nat.succ_inj.mp lengths) same.2]
  | case2 components lefts rights =>
    cases components <;> cases lefts <;> cases rights <;> grind [KindsMatch]

/-- Component lists of one length are equal or have a first difference, as they compare. -/
theorem encodeComponents_cases (leftKinds : KindsMatch components lefts)
    (rightKinds : KindsMatch components rights) (lengths : lefts.length = rights.length) :
    Precedes (encodeComponents components lefts) (encodeComponents components rights) ∧
        compareParts components lefts rights = .lt ∨
      lefts = rights ∧ compareParts components lefts rights = .eq ∨
      Precedes (encodeComponents components rights) (encodeComponents components lefts) ∧
        compareParts components lefts rights = .gt := by
  cases order : compareParts components lefts rights with
  | lt => exact .inl ⟨precedes_encodeComponents leftKinds rightKinds order, rfl⟩
  | eq => exact .inr (.inl ⟨eq_of_compareParts leftKinds rightKinds lengths order, rfl⟩)
  | gt =>
    have swapped : compareParts components rights lefts = .lt := by
      rw [← compareParts_swap, order]
      rfl
    exact .inr (.inr ⟨precedes_encodeComponents rightKinds leftKinds swapped, rfl⟩)

theorem compare_encodeComponents (leftKinds : KindsMatch components lefts)
    (rightKinds : KindsMatch components rights) (lengths : lefts.length = rights.length) :
    compare (encodeComponents components lefts) (encodeComponents components rights) =
      compareParts components lefts rights := by
  rcases encodeComponents_cases leftKinds rightKinds lengths with
    ⟨less, order⟩ | ⟨rfl, order⟩ | ⟨more, order⟩
  · rw [less.compare_eq_lt, order]
  · rw [Std.ReflOrd.compare_self, order]
  · rw [eq_swap, more.compare_eq_lt, order]
    rfl

namespace KeySchema

/-- The key has exactly the components of the schema. -/
structure Valid (schema : KeySchema) (key : StructuralKey) : Prop where
  length_eq : key.parts.length = schema.components.length
  kinds : KindsMatch schema.components key.parts

/-- The bytes of a valid key. -/
def keyBytes (schema : KeySchema) (values : List StructuralValue) : List UInt8 :=
  keyCodecVersion :: encodeComponents schema.components values

variable {schema : KeySchema} {leading : List StructuralValue} {key : StructuralKey}
  {bytes : List UInt8}

theorem encode_eq_ok_iff :
    schema.encode key = .ok bytes ↔ schema.Valid key ∧ bytes = schema.keyBytes key.parts := by
  rw [encode, validateKey, check_bind_eq_ok_iff, check_bind_eq_ok_iff,
    reject_eq_ok_iff, not_not, pure_eq_ok_iff]
  constructor
  · rintro ⟨⟨lengths, validated⟩, rfl⟩
    exact ⟨⟨lengths, (validateParts_eq_ok_iff lengths.le).mp validated⟩, rfl⟩
  · rintro ⟨valid, rfl⟩
    exact ⟨⟨valid.length_eq, (validateParts_eq_ok_iff valid.length_eq.le).mpr valid.kinds⟩, rfl⟩

theorem encodeStructuralPrefix_eq_ok_iff :
    schema.encodeStructuralPrefix leading = .ok bytes ↔
      KindsMatch schema.components leading ∧ bytes = schema.keyBytes leading := by
  rw [encodeStructuralPrefix, check_bind_eq_ok_iff, check_bind_eq_ok_iff,
    reject_eq_ok_iff, Nat.not_lt, pure_eq_ok_iff]
  constructor
  · rintro ⟨short, validated, rfl⟩
    exact ⟨(validateParts_eq_ok_iff short).mp validated, rfl⟩
  · rintro ⟨kinds, rfl⟩
    exact ⟨kinds.length_le, (validateParts_eq_ok_iff kinds.length_le).mpr kinds, rfl⟩

/-- A leading list of components is recognized in the bytes of a key. -/
theorem keyBytes_isPrefix_iff (leadingKinds : KindsMatch schema.components leading)
    (valid : schema.Valid key) :
    schema.keyBytes leading <+: schema.keyBytes key.parts ↔
      key.parts.take leading.length = leading := by
  have short : leading.length ≤ key.parts.length := by
    rw [valid.length_eq]
    exact leadingKinds.length_le
  have split := encodeComponents_take_append schema.components key.parts leading.length
  constructor
  · intro isPrefix
    by_contra differ
    have lengths : (key.parts.take leading.length).length = leading.length :=
      length_take_of_le short
    have noPrefix : ¬ encodeComponents schema.components leading <+:
        encodeComponents schema.components key.parts := by
      rw [split]
      rcases encodeComponents_cases (valid.kinds.take leading.length) leadingKinds lengths with
        ⟨precedes, _⟩ | ⟨same, _⟩ | ⟨precedes, _⟩
      · exact (append_nil (encodeComponents schema.components leading) ▸
          precedes.append_right _ []).not_isPrefix.2
      · exact absurd same differ
      · exact (append_nil (encodeComponents schema.components leading) ▸
          precedes.append_right [] _).not_isPrefix.1
    exact noPrefix (cons_prefix_cons.mp isPrefix).2
  · intro same
    rw [same] at split
    exact cons_prefix_cons.mpr ⟨rfl, split ▸ prefix_append _ _⟩

theorem compare_keyBytes {left right : StructuralKey}
    (leftValid : schema.Valid left) (rightValid : schema.Valid right) :
    compare (schema.keyBytes left.parts) (schema.keyBytes right.parts) =
      compareParts schema.components left.parts right.parts := by
  rw [← compare_encodeComponents leftValid.kinds rightValid.kinds
    (leftValid.length_eq.trans rightValid.length_eq.symm)]
  exact List.compareLex_cons_cons

theorem eq_of_keyBytes_eq {left right : StructuralKey}
    (leftValid : schema.Valid left) (rightValid : schema.Valid right)
    (same : schema.keyBytes left.parts = schema.keyBytes right.parts) : left = right := by
  have order := compare_keyBytes leftValid rightValid
  rw [same, Std.ReflOrd.compare_self] at order
  exact StructuralKey.ext (eq_of_compareParts leftValid.kinds rightValid.kinds
    (leftValid.length_eq.trans rightValid.length_eq.symm) order.symm)

/-- Encoded keys compare as the keys do in the directions of the schema; equal bytes are equal
keys, and the bytes of the first components of one key are a prefix of another key's bytes
exactly when these components agree. -/
theorem encode_order {schema : KeySchema} {left right : StructuralKey}
    (leftValid : schema.Valid left) (rightValid : schema.Valid right) :
    ∃ leftBytes rightBytes, schema.encode left = .ok leftBytes ∧
      schema.encode right = .ok rightBytes ∧
      compare leftBytes rightBytes = compareParts schema.components left.parts right.parts ∧
      (leftBytes = rightBytes ↔ left = right) ∧
      ∀ count ≤ schema.components.length,
        ∃ frontBytes, schema.encodeStructuralPrefix (left.parts.take count) = .ok frontBytes ∧
          (frontBytes <+: rightBytes ↔ left.parts.take count = right.parts.take count) := by
  refine ⟨_, _, encode_eq_ok_iff.mpr ⟨leftValid, rfl⟩, encode_eq_ok_iff.mpr ⟨rightValid, rfl⟩,
    compare_keyBytes leftValid rightValid, ?_, ?_⟩
  · constructor
    · exact eq_of_keyBytes_eq leftValid rightValid
    · intro same
      rw [same]
  · intro count short
    have taken : (left.parts.take count).length = count :=
      length_take_of_le (leftValid.length_eq ▸ short)
    refine ⟨_, encodeStructuralPrefix_eq_ok_iff.mpr ⟨leftValid.kinds.take count, rfl⟩, ?_⟩
    rw [keyBytes_isPrefix_iff (leftValid.kinds.take count) rightValid, taken, eq_comm]

/-- An ascending text and a descending number. -/
def textThenNumber : KeySchema :=
  ⟨[⟨.text, .asc⟩, ⟨.number, .desc⟩], by decide⟩

def textThenNumberKey (utf8 : List UInt8) (value : Int) : StructuralKey :=
  ⟨[.text utf8, .number (ofInt value)], Nat.le_add_left 2 6⟩

theorem valid_textThenNumberKey (utf8 : List UInt8) (value : Int) :
    textThenNumber.Valid (textThenNumberKey utf8 value) :=
  ⟨rfl, rfl, rfl, trivial⟩

/-- A text comes before its continuation by a zero byte, whatever the numbers behind are. -/
theorem encode_order_zeroByte :
    textThenNumber.Valid (textThenNumberKey [97] 1) ∧
      textThenNumber.Valid (textThenNumberKey [97, 0] 2) ∧
      ∃ leftBytes rightBytes, textThenNumber.encode (textThenNumberKey [97] 1) = .ok leftBytes ∧
        textThenNumber.encode (textThenNumberKey [97, 0] 2) = .ok rightBytes ∧
        compare leftBytes rightBytes = .lt := by
  have leftValid := valid_textThenNumberKey [97] 1
  have rightValid := valid_textThenNumberKey [97, 0] 2
  obtain ⟨leftBytes, rightBytes, leftEncoded, rightEncoded, order, _⟩ :=
    encode_order leftValid rightValid
  exact ⟨leftValid, rightValid, leftBytes, rightBytes, leftEncoded, rightEncoded, order.trans rfl⟩

end KeySchema

end BoonCircuit.ListAccess
