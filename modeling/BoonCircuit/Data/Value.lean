import BoonCircuit.Data.BitsOperations
import BoonCircuit.Data.Number
import BoonCircuit.Lib.Sorted
import BoonCircuit.Lib.Text

/-!
# Structural data values

`Value` is the recursive data type of `boon_data`.  The ordered maps and sets inside a
value are the lists of their entries in iteration order; `Value.Canonical` states what
the source types guarantee about them: keys strictly increase, and every length is a
machine word.  Values are ordered first by variant, then by contents.
-/

namespace BoonCircuit.Data

open Lib Text Order Std Ordering

/-- Canonical recursive value for target-neutral structural data. -/
inductive Value where
  | number (number : ExactNumber)
  | text (text : String)
  | bytes (bytes : List UInt8)
  | list (values : List Value)
  | object (fields : List (String × Value))
  | tag (tag : String) (fields : List (String × Value))
  | map (entries : List (Value × Value))
  | set (items : List Value)
  | bits (bits : Bits)

namespace Value

/-- Position of the variant in the source enumeration. -/
def discriminant : Value → Nat
  | .number _ => 0
  | .text _ => 1
  | .bytes _ => 2
  | .list _ => 3
  | .object _ => 4
  | .tag _ _ => 5
  | .map _ => 6
  | .set _ => 7
  | .bits _ => 8

mutual

/-- The derived comparison of values. -/
def cmp : Value → Value → Ordering
  | .number left, .number right => compare left right
  | .text left, .text right => compareText left right
  | .bytes left, .bytes right => compare left right
  | .list left, .list right => cmpValues left right
  | .object left, .object right => cmpFields left right
  | .tag leftTag left, .tag rightTag right =>
    (compareText leftTag rightTag).then (cmpFields left right)
  | .map left, .map right => cmpEntries left right
  | .set left, .set right => cmpValues left right
  | .bits left, .bits right => compare left right
  | left, right => compare left.discriminant right.discriminant
  termination_by structural left => left

/-- Lexicographic comparison of value sequences. -/
def cmpValues : List Value → List Value → Ordering
  | [], [] => .eq
  | [], _ :: _ => .lt
  | _ :: _, [] => .gt
  | left :: lefts, right :: rights => (cmp left right).then (cmpValues lefts rights)
  termination_by structural lefts => lefts

/-- Lexicographic comparison of text-keyed entries. -/
def cmpFields : List (String × Value) → List (String × Value) → Ordering
  | [], [] => .eq
  | [], _ :: _ => .lt
  | _ :: _, [] => .gt
  | (leftKey, left) :: lefts, (rightKey, right) :: rights =>
    ((compareText leftKey rightKey).then (cmp left right)).then (cmpFields lefts rights)
  termination_by structural lefts => lefts

/-- Lexicographic comparison of value-keyed entries. -/
def cmpEntries : List (Value × Value) → List (Value × Value) → Ordering
  | [], [] => .eq
  | [], _ :: _ => .lt
  | _ :: _, [] => .gt
  | (leftKey, left) :: lefts, (rightKey, right) :: rights =>
    ((cmp leftKey rightKey).then (cmp left right)).then (cmpEntries lefts rights)
  termination_by structural lefts => lefts

end

instance : Ord Value :=
  ⟨cmp⟩

theorem cmp_of_discriminant_ne {left right : Value}
    (different : left.discriminant ≠ right.discriminant) :
    cmp left right = compare left.discriminant right.discriminant := by
  cases left <;> cases right <;> first | rfl | exact absurd rfl different

mutual

theorem cmp_eq_iff {left right : Value} : cmp left right = .eq ↔ left = right := by
  by_cases variant : left.discriminant = right.discriminant
  · cases left <;> cases right <;> try (cases variant; done)
    all_goals simp [cmp, compareText_eq_iff, cmpValues_eq_iff, cmpFields_eq_iff, cmpEntries_eq_iff]
  · rw [cmp_of_discriminant_ne variant, Nat.compare_eq_eq]
    exact iff_of_false variant (variant <| congrArg _ ·)
  termination_by structural left

theorem cmpValues_eq_iff {left right : List Value} : cmpValues left right = .eq ↔ left = right := by
  cases left <;> cases right <;> simp [cmpValues, cmp_eq_iff, cmpValues_eq_iff]
  termination_by structural left

theorem cmpFields_eq_iff {left right : List (String × Value)} :
    cmpFields left right = .eq ↔ left = right := by
  cases left <;> cases right <;>
    simp [cmpFields, Prod.ext_iff, compareText_eq_iff, cmp_eq_iff, cmpFields_eq_iff]
  termination_by structural left

theorem cmpEntries_eq_iff {left right : List (Value × Value)} :
    cmpEntries left right = .eq ↔ left = right := by
  cases left <;> cases right <;> simp [cmpEntries, Prod.ext_iff, cmp_eq_iff, cmpEntries_eq_iff]
  termination_by structural left

end

/-- A place of a written value. -/
structure Token where
  mark : Nat
  number : ExactNumber := .zero
  bytes : List UInt8 := []
  bits : List Bool := []

instance : Ord Token :=
  ⟨compareLex (compareOn Token.mark) (compareLex (compareOn Token.number)
    (compareLex (compareOn Token.bytes) (compareOn Token.bits)))⟩

instance : TransOrd Token :=
  inferInstanceAs (TransCmp (compareLex _ (compareLex _ (compareLex _ _))))

mutual

/-- A value written in front of others, such that lexicographic comparison compares it. -/
def tokens : Value → List Token → List Token
  | .number exact, rest => { mark := 0, number := exact } :: rest
  | .text written, rest => { mark := 1, bytes := utf8Bytes written } :: rest
  | .bytes content, rest => { mark := 2, bytes := content } :: rest
  | .list values, rest => { mark := 3 } :: tokensValues values rest
  | .object fields, rest => { mark := 4 } :: tokensFields fields rest
  | .tag name fields, rest => { mark := 5, bytes := utf8Bytes name } :: tokensFields fields rest
  | .map entries, rest => { mark := 6 } :: tokensEntries entries rest
  | .set items, rest => { mark := 7 } :: tokensValues items rest
  | .bits sequence, rest => { mark := 8, bits := sequence.leftBits } :: rest

def tokensValues : List Value → List Token → List Token
  | [], rest => { mark := 0 } :: rest
  | value :: values, rest => { mark := 1 } :: tokens value (tokensValues values rest)

def tokensFields : List (String × Value) → List Token → List Token
  | [], rest => { mark := 0 } :: rest
  | (key, value) :: fields, rest =>
    { mark := 1, bytes := utf8Bytes key } :: tokens value (tokensFields fields rest)

def tokensEntries : List (Value × Value) → List Token → List Token
  | [], rest => { mark := 0 } :: rest
  | (key, value) :: entries, rest =>
    { mark := 1 } :: tokens key (tokens value (tokensEntries entries rest))

end

theorem compare_cons {left right : Token} {lefts rights : List Token} :
    compare (left :: lefts) (right :: rights) = (compare left.mark right.mark).then
      ((compare left.number right.number).then ((compare left.bytes right.bytes).then
        ((compare left.bits right.bits).then (compare lefts rights)))) := by
  rw [List.compare_cons_cons]
  change (compareLex _ _ _ _).then _ = _
  simp only [compareLex, compareOn, then_assoc]

theorem exists_tokens_eq_cons (value : Value) (rest : List Token) :
    ∃ token more, tokens value rest = token :: more ∧ token.mark = value.discriminant := by
  cases value <;> exact ⟨_, _, rfl, rfl⟩

mutual

theorem compare_tokens (left right : Value) (lefts rights : List Token) :
    compare (tokens left lefts) (tokens right rights) =
      (cmp left right).then (compare lefts rights) := by
  by_cases variant : left.discriminant = right.discriminant
  · cases left <;> cases right <;> try (cases variant; done)
    all_goals simp only [tokens, compare_cons, cmp, compare_self, eq_then, then_assoc, compareText,
      Bits.compare_eq_compare_leftBits, compare_tokensValues, compare_tokensFields,
      compare_tokensEntries]
  · obtain ⟨_, _, leftEq, leftMark⟩ := exists_tokens_eq_cons left lefts
    obtain ⟨_, _, rightEq, rightMark⟩ := exists_tokens_eq_cons right rights
    rw [leftEq, rightEq, compare_cons, leftMark, rightMark, cmp_of_discriminant_ne variant]
    cases order : compare left.discriminant right.discriminant with
    | eq => exact absurd (Nat.compare_eq_eq.mp order) variant
    | lt | gt => rfl
  termination_by structural left

theorem compare_tokensValues (left right : List Value) (lefts rights : List Token) :
    compare (tokensValues left lefts) (tokensValues right rights) =
      (cmpValues left right).then (compare lefts rights) := by
  cases left <;> cases right
  all_goals simp only [tokensValues, compare_cons, cmpValues, compare_self, eq_then, then_assoc,
    compare_tokens, compare_tokensValues]
  all_goals rfl
  termination_by structural left

theorem compare_tokensFields (left right : List (String × Value)) (lefts rights : List Token) :
    compare (tokensFields left lefts) (tokensFields right rights) =
      (cmpFields left right).then (compare lefts rights) := by
  cases left <;> cases right
  all_goals simp only [tokensFields, compare_cons, cmpFields, compareText, compare_self, eq_then,
    then_assoc, compare_tokens, compare_tokensFields]
  all_goals rfl
  termination_by structural left

theorem compare_tokensEntries (left right : List (Value × Value)) (lefts rights : List Token) :
    compare (tokensEntries left lefts) (tokensEntries right rights) =
      (cmpEntries left right).then (compare lefts rights) := by
  cases left <;> cases right
  all_goals simp only [tokensEntries, compare_cons, cmpEntries, compare_self, eq_then, then_assoc,
    compare_tokens, compare_tokensEntries]
  all_goals rfl
  termination_by structural left

end

instance : TransOrd Value :=
  transOrd_of_compare_eq (tokens · []) fun left right => by
    rw [compare_tokens, compare_self, then_eq]
    rfl

instance : TransCmp cmp :=
  inferInstanceAs (TransOrd Value)

instance : DecidableEq Value :=
  fun _ _ => decidable_of_iff _ cmp_eq_iff

instance : LawfulEqOrd Value where
  eq_of_compare := cmp_eq_iff.mp

end Value

open Lib Sorted

/-- One past the largest machine word. -/
def wordLimit : Nat := 2 ^ 64

namespace Value

mutual

/-- Whether a value may be a map key or a set item. -/
def isKeySafe : Value → Bool
  | .number _ => true
  | .text _ => true
  | .bytes _ => true
  | .bits _ => true
  | .object fields => fieldsKeySafe fields
  | .tag _ fields => fieldsKeySafe fields
  | .list _ => false
  | .map _ => false
  | .set _ => false

/-- Whether every field value is key-safe. -/
def fieldsKeySafe : List (String × Value) → Bool
  | [] => true
  | (_, value) :: fields => value.isKeySafe && fieldsKeySafe fields

end

/-- A text fits the address space. -/
def TextFits (text : String) : Prop :=
  (Text.utf8Bytes text).length < wordLimit

instance (text : String) : Decidable (TextFits text) :=
  inferInstanceAs (Decidable (_ < _))

mutual

/-- The value is one that the source types can hold. -/
@[grind =]
def Canonical : Value → Prop
  | .number _ => True
  | .text content => TextFits content
  | .bytes content => content.length < wordLimit
  | .list values => values.length < wordLimit ∧ CanonicalValues values
  | .object fields => fields.length < wordLimit ∧
      Increasing Text.compareText (fields.map Prod.fst) ∧ CanonicalFields fields
  | .tag name fields => TextFits name ∧ fields.length < wordLimit ∧
      Increasing Text.compareText (fields.map Prod.fst) ∧ CanonicalFields fields
  | .map entries => entries.length < wordLimit ∧
      Increasing cmp (entries.map Prod.fst) ∧ CanonicalEntries entries
  | .set items => items.length < wordLimit ∧ Increasing cmp items ∧ CanonicalValues items
  | .bits _ => True

/-- Every value of a sequence is canonical. -/
def CanonicalValues : List Value → Prop
  | [] => True
  | value :: values => value.Canonical ∧ CanonicalValues values

/-- Every field is canonical. -/
def CanonicalFields : List (String × Value) → Prop
  | [] => True
  | (key, value) :: fields => TextFits key ∧ value.Canonical ∧ CanonicalFields fields

/-- Every entry is canonical. -/
def CanonicalEntries : List (Value × Value) → Prop
  | [] => True
  | (key, value) :: entries => key.Canonical ∧ value.Canonical ∧ CanonicalEntries entries

end

/-- Two conditions that can be evaluated one after the other. -/
def decideBoth {p q : Prop} (first : Decidable p) (second : Decidable q) : Decidable (p ∧ q) :=
  instDecidableAnd

mutual

/-- Canonicality can be evaluated. -/
def decideCanonical : (value : Value) → Decidable value.Canonical
  | .number _ => .isTrue trivial
  | .text content => inferInstanceAs (Decidable (TextFits content))
  | .bytes content => inferInstanceAs (Decidable (content.length < wordLimit))
  | .list values => decideBoth inferInstance (decideCanonicalValues values)
  | .object fields =>
    decideBoth inferInstance (decideBoth inferInstance (decideCanonicalFields fields))
  | .tag _ fields =>
    decideBoth inferInstance
      (decideBoth inferInstance (decideBoth inferInstance (decideCanonicalFields fields)))
  | .map entries =>
    decideBoth inferInstance (decideBoth inferInstance (decideCanonicalEntries entries))
  | .set items =>
    decideBoth inferInstance (decideBoth inferInstance (decideCanonicalValues items))
  | .bits _ => .isTrue trivial

/-- Canonicality of a sequence can be evaluated. -/
def decideCanonicalValues : (values : List Value) → Decidable (CanonicalValues values)
  | [] => .isTrue trivial
  | value :: values => decideBoth (decideCanonical value) (decideCanonicalValues values)

/-- Canonicality of fields can be evaluated. -/
def decideCanonicalFields :
    (fields : List (String × Value)) → Decidable (CanonicalFields fields)
  | [] => .isTrue trivial
  | (_, value) :: fields =>
    decideBoth inferInstance
      (decideBoth (decideCanonical value) (decideCanonicalFields fields))

/-- Canonicality of entries can be evaluated. -/
def decideCanonicalEntries :
    (entries : List (Value × Value)) → Decidable (CanonicalEntries entries)
  | [] => .isTrue trivial
  | (key, value) :: entries =>
    decideBoth (decideCanonical key)
      (decideBoth (decideCanonical value) (decideCanonicalEntries entries))

end

instance : DecidablePred Canonical :=
  decideCanonical

mutual

/-- Every number inside the value respects the default semantic profile. -/
@[grind =]
def NumbersWithinProfile : Value → Prop
  | .number content => content.WithinProfile .default
  | .text _ => True
  | .bytes _ => True
  | .list values => NumbersWithinProfileValues values
  | .object fields => NumbersWithinProfileFields fields
  | .tag _ fields => NumbersWithinProfileFields fields
  | .map entries => NumbersWithinProfileEntries entries
  | .set items => NumbersWithinProfileValues items
  | .bits _ => True

/-- Every number inside a sequence respects the profile. -/
def NumbersWithinProfileValues : List Value → Prop
  | [] => True
  | value :: values => value.NumbersWithinProfile ∧ NumbersWithinProfileValues values

/-- Every number inside the fields respects the profile. -/
def NumbersWithinProfileFields : List (String × Value) → Prop
  | [] => True
  | (_, value) :: fields => value.NumbersWithinProfile ∧ NumbersWithinProfileFields fields

/-- Every number inside the entries respects the profile. -/
def NumbersWithinProfileEntries : List (Value × Value) → Prop
  | [] => True
  | (key, value) :: entries => key.NumbersWithinProfile ∧ value.NumbersWithinProfile ∧
      NumbersWithinProfileEntries entries

end

variable {tag : String} {fields : List (String × Value)} {values : List Value}
  {entries : List (Value × Value)}

theorem canonicalValues_iff : CanonicalValues values ↔ ∀ value ∈ values, value.Canonical := by
  induction values with
  | nil => simp [CanonicalValues]
  | cons value values ih => simp [CanonicalValues, ih]

theorem canonicalFields_iff :
    CanonicalFields fields ↔ ∀ field ∈ fields, TextFits field.1 ∧ field.2.Canonical := by
  induction fields with
  | nil => simp [CanonicalFields]
  | cons field fields ih => simp [CanonicalFields, ih, and_assoc]

theorem canonicalEntries_iff :
    CanonicalEntries entries ↔ ∀ entry ∈ entries, entry.1.Canonical ∧ entry.2.Canonical := by
  induction entries with
  | nil => simp [CanonicalEntries]
  | cons entry entries ih => simp [CanonicalEntries, ih, and_assoc]

theorem numbersWithinProfileValues_iff :
    NumbersWithinProfileValues values ↔ ∀ value ∈ values, value.NumbersWithinProfile := by
  induction values with
  | nil => simp [NumbersWithinProfileValues]
  | cons value values ih => simp [NumbersWithinProfileValues, ih]

theorem numbersWithinProfileFields_iff :
    NumbersWithinProfileFields fields ↔ ∀ field ∈ fields, field.2.NumbersWithinProfile := by
  induction fields with
  | nil => simp [NumbersWithinProfileFields]
  | cons field fields ih => simp [NumbersWithinProfileFields, ih]

theorem numbersWithinProfileEntries_iff :
    NumbersWithinProfileEntries entries ↔
      ∀ entry ∈ entries, entry.1.NumbersWithinProfile ∧ entry.2.NumbersWithinProfile := by
  induction entries with
  | nil => simp [NumbersWithinProfileEntries]
  | cons entry entries ih => simp [NumbersWithinProfileEntries, ih, and_assoc]

end Value

/-- A value together with the guarantees of the source types. -/
def CanonicalValue : Type :=
  { value : Value // value.Canonical }

example : (Value.map [(.text "a", .list []), (.text "b", .set [])]).Canonical := by decide

example : ¬ (Value.set [.text "b", .text "a"]).Canonical := by decide

end BoonCircuit.Data
