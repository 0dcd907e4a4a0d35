import BoonCircuit.Wire.DecoderCorrectness

/-!
# The spelling of a decoded value

The laws of the scalar readers and of the collection loops, and from them the
law of `Decoder.value`: at a depth it reads exactly the `wireBytes` of canonical
values that fit the limits and whose numbers respect the default profile.
-/

namespace BoonCircuit.Wire

open Lib Data Checks Value Sorted Text List

namespace Decoder

variable {α : Type} {limits : Limits} {contents : List (String × Value)} {depth : Nat}
  {content : String}

theorem accepts_lift (outcome : Except WireError α) :
    Accepts limits (fun decoder => do
        let result ← outcome
        return (result, decoder))
      (fun result output nodes => outcome = .ok result ∧ output = [] ∧ nodes = 0) := by
  refine (Accepts.lift outcome accepts_pure).congr ?_
  intro result output nodes
  constructor
  · rintro ⟨_, done, rfl, rfl, rfl⟩
    exact ⟨done, rfl, rfl⟩
  · rintro ⟨done, rfl, rfl⟩
    exact ⟨result, done, rfl, rfl, rfl⟩

theorem accepts_text :
    Accepts limits text (fun content output nodes =>
      TextFits limits content ∧ output = textBytes content ∧ nodes = 0) := by
  refine ((accepts_readFramed .textBytes Limits.maxTextBytes).bind fun bytes =>
    accepts_lift (okOr (fromUtf8 bytes) .invalidUtf8)).congr ?_
  intro content output nodes
  simp only [okOr_eq_ok_iff, fromUtf8_eq_some_iff]
  constructor
  · rintro ⟨_, _, _, _, _, ⟨fits, rfl, rfl⟩, ⟨rfl, rfl, rfl⟩, rfl, rfl⟩
    exact ⟨fits, append_nil _, rfl⟩
  · rintro ⟨fits, rfl, rfl⟩
    exact ⟨_, _, _, _, _, ⟨fits, rfl, rfl⟩, ⟨rfl, rfl, rfl⟩, (append_nil _).symm, rfl⟩

theorem accepts_number :
    Accepts limits number (fun content output nodes =>
      (NumberFits limits content ∧ content.WithinProfile .default) ∧
      output = [content.sign.toByte] ++
        (framed content.numeratorMagnitudeBytes ++ framed content.denominatorBytes) ∧
      nodes = 0) := by
  have component : Accepts limits (readFramed .numberComponentBytes _) _ :=
    accepts_readFramed .numberComponentBytes Limits.maxNumberComponentBytes
  refine (accepts_byte.bind fun code =>
    Accepts.lift ((ExactNumberSign.tryFrom code).mapError fun _ => .nonCanonicalNumber) fun sign =>
    component.bind fun numerator => component.bind fun denominator =>
      accepts_lift ((ExactNumber.fromCanonicalBytes sign numerator denominator).mapError
        fun _ => .nonCanonicalNumber)).congr ?_
  intro content output nodes
  simp only [mapError_eq_ok_iff, ExactNumberSign.tryFrom_eq_ok_iff,
    ExactNumber.fromCanonicalBytes_eq_ok_iff]
  constructor
  · rintro ⟨_, _, _, _, _, ⟨rfl, rfl⟩, ⟨_, rfl, _, _, _, _, _, ⟨numeratorFits, rfl, rfl⟩,
      ⟨_, _, _, _, _, ⟨denominatorFits, rfl, rfl⟩, ⟨⟨within, rfl, rfl, rfl⟩, rfl, rfl⟩, rfl, rfl⟩,
      rfl, rfl⟩, rfl, rfl⟩
    exact ⟨⟨⟨numeratorFits, denominatorFits⟩, within⟩, by simp, rfl⟩
  · rintro ⟨⟨⟨numeratorFits, denominatorFits⟩, within⟩, rfl, rfl⟩
    exact ⟨_, _, _, _, _, ⟨rfl, rfl⟩, ⟨_, rfl, _, _, _, _, _, ⟨numeratorFits, rfl, rfl⟩,
      ⟨_, _, _, _, _, ⟨denominatorFits, rfl, rfl⟩, ⟨⟨within, rfl, rfl, rfl⟩, rfl, rfl⟩, rfl, rfl⟩,
      rfl, rfl⟩, by simp, rfl⟩

theorem accepts_bits :
    Accepts limits bits (fun content output nodes =>
      content.bytes.length ≤ limits.maxBitsBytes.toNat ∧
        output = lengthBytes content.width ++ content.bytes ∧ nodes = 0) := by
  refine (accepts_length.bind fun width =>
    (((accepts_read (byteLen width)).bind fun bytes =>
      accepts_lift
        ((Bits.fromCanonicalBytes width bytes).mapError fun _ => .nonCanonicalBits)).check
        .bitsBytes (byteLen width) Limits.maxBitsBytes).guard
          (2 ^ 32 ≤ width) .nonCanonicalBits).congr ?_
  intro content output nodes
  simp only [mapError_eq_ok_iff, Bits.fromCanonicalBytes_eq_ok_iff]
  constructor
  · rintro ⟨_, _, _, _, _, ⟨_, rfl, rfl⟩, ⟨_, bounded, _, _, _, _, _, ⟨_, rfl, rfl⟩,
      ⟨⟨rfl, rfl⟩, rfl, rfl⟩, rfl, rfl⟩, rfl, rfl⟩
    rw [← content.length_bytes] at bounded
    exact ⟨bounded, by simp, rfl⟩
  · rintro ⟨bounded, rfl, rfl⟩
    have widthLe := content.width_le
    rw [content.length_bytes] at bounded
    have narrow : ¬ 2 ^ 32 ≤ content.width := by
      unfold maxBitsWidth at widthLe
      omega
    refine ⟨content.width, _, 0, content.bytes, 0, ⟨?_, rfl, rfl⟩, ⟨narrow, bounded,
      content.bytes, content.bytes, 0, [], 0, ⟨content.length_bytes, rfl, rfl⟩,
      ⟨⟨rfl, rfl⟩, rfl, rfl⟩, by simp, rfl⟩, rfl, rfl⟩
    unfold wordLimit
    omega

/-- What the decoder guarantees about a value at a depth. -/
def Admitted (limits : Limits) (depth : Nat) (content : Value) : Prop :=
  Fits limits content depth ∧ content.Canonical ∧ content.NumbersWithinProfile

/-- A value is spelled by its wire bytes. -/
def ValueSpelling (limits : Limits) (depth : Nat) : Spelling Value :=
  fun content output nodes => Admitted limits depth content ∧ output = wireBytes content ∧
    nodes = nodeCount content

/-! The conditions on a value, constructor by constructor. -/

theorem admitted_number_iff {content : ExactNumber} :
    Admitted limits depth (.number content) ↔ depth ≤ limits.maxDepth.toNat ∧
      NumberFits limits content ∧
      content.WithinProfile .default := by
  simp [Admitted, Fits, Canonical, NumbersWithinProfile, and_assoc]

theorem admitted_text_iff :
    Admitted limits depth (.text content) ↔
      depth ≤ limits.maxDepth.toNat ∧ TextFits limits content := by
  have word := limit_lt_wordLimit limits.maxTextBytes
  simp only [Admitted, Fits, Canonical, NumbersWithinProfile, and_true, TextFits, Value.TextFits]
  omega

theorem admitted_bytes_iff {content : List UInt8} :
    Admitted limits depth (.bytes content) ↔ depth ≤ limits.maxDepth.toNat ∧
      content.length ≤ limits.maxByteStringBytes.toNat := by
  have word := limit_lt_wordLimit limits.maxByteStringBytes
  simp only [Admitted, Fits, Canonical, NumbersWithinProfile, and_true]
  omega

private theorem word_of_collectionFits {size : Nat} (fits : CollectionFits limits size) :
    size < wordLimit :=
  Nat.lt_of_le_of_lt fits (limit_lt_wordLimit limits.maxCollectionLength)

private theorem word_of_textFits (fits : TextFits limits content) : Value.TextFits content :=
  Nat.lt_of_le_of_lt fits (limit_lt_wordLimit limits.maxTextBytes)

theorem admitted_list_iff {contents : List Value} :
    Admitted limits depth (.list contents) ↔ depth ≤ limits.maxDepth.toNat ∧
      CollectionFits limits contents.length ∧
      ∀ content ∈ contents, Admitted limits (depth + 1) content := by
  simp only [Admitted, Fits, Canonical, NumbersWithinProfile, fitsValues_iff,
    canonicalValues_iff, numbersWithinProfileValues_iff, forall₂_and]
  constructor
  · rintro ⟨⟨deep, fits, allFit⟩, ⟨_, canonical⟩, profile⟩
    exact ⟨deep, fits, allFit, canonical, profile⟩
  · rintro ⟨deep, fits, allFit, canonical, profile⟩
    exact ⟨⟨deep, fits, allFit⟩, ⟨word_of_collectionFits fits, canonical⟩, profile⟩

theorem admitted_object_iff :
    Admitted limits depth (.object contents) ↔ depth ≤ limits.maxDepth.toNat ∧
      CollectionFits limits contents.length ∧
      Increasing compareText (contents.map Prod.fst) ∧
      ∀ field ∈ contents, TextFits limits field.1 ∧ Admitted limits (depth + 1) field.2 := by
  simp only [Admitted, Fits, Canonical, NumbersWithinProfile, fitsFields_iff,
    canonicalFields_iff, numbersWithinProfileFields_iff, forall₂_and]
  constructor
  · rintro ⟨⟨deep, fits, names, allFit⟩, ⟨_, sorted, _, canonical⟩, profile⟩
    exact ⟨deep, fits, sorted, names, allFit, canonical, profile⟩
  · rintro ⟨deep, fits, sorted, names, allFit, canonical, profile⟩
    have words := fun field mem => word_of_textFits (names field mem)
    exact ⟨⟨deep, fits, names, allFit⟩,
      ⟨word_of_collectionFits fits, sorted, words, canonical⟩, profile⟩

theorem admitted_tag_iff {name : String} :
    Admitted limits depth (.tag name contents) ↔
      TextFits limits name ∧ Admitted limits depth (.object contents) := by
  unfold Admitted
  rw [fits_tag_iff]
  constructor
  · rintro ⟨⟨nameFits, fits⟩, ⟨_, canonical⟩, profile⟩
    exact ⟨nameFits, fits, canonical, profile⟩
  · rintro ⟨nameFits, fits, canonical, profile⟩
    exact ⟨⟨nameFits, fits⟩, ⟨word_of_textFits nameFits, canonical⟩, profile⟩

theorem admitted_map_iff {contents : List (Value × Value)} :
    Admitted limits depth (.map contents) ↔ depth ≤ limits.maxDepth.toNat ∧
      CollectionFits limits contents.length ∧
      Increasing Value.cmp (contents.map Prod.fst) ∧
      ∀ entry ∈ contents, entry.1.isKeySafe = true ∧ Admitted limits (depth + 1) entry.1 ∧
        Admitted limits (depth + 1) entry.2 := by
  simp only [Admitted, Fits, Canonical, NumbersWithinProfile, fitsEntries_iff,
    canonicalEntries_iff, numbersWithinProfileEntries_iff, forall₂_and]
  constructor
  · rintro ⟨⟨deep, fits, safe, keysFit, allFit⟩, ⟨_, sorted, keys, canonical⟩, ranges, profile⟩
    exact ⟨deep, fits, sorted, safe, ⟨keysFit, keys, ranges⟩, allFit, canonical, profile⟩
  · rintro ⟨deep, fits, sorted, safe, ⟨keysFit, keys, ranges⟩, allFit, canonical, profile⟩
    exact ⟨⟨deep, fits, safe, keysFit, allFit⟩,
      ⟨word_of_collectionFits fits, sorted, keys, canonical⟩, ranges, profile⟩

theorem admitted_set_iff {contents : List Value} :
    Admitted limits depth (.set contents) ↔ depth ≤ limits.maxDepth.toNat ∧
      CollectionFits limits contents.length ∧ Increasing Value.cmp contents ∧
      ∀ item ∈ contents, item.isKeySafe = true ∧ Admitted limits (depth + 1) item := by
  simp only [Admitted, Fits, Canonical, NumbersWithinProfile, fitsItems_iff,
    canonicalValues_iff, numbersWithinProfileValues_iff, forall₂_and]
  constructor
  · rintro ⟨⟨deep, fits, safe, allFit⟩, ⟨_, sorted, canonical⟩, profile⟩
    exact ⟨deep, fits, sorted, safe, allFit, canonical, profile⟩
  · rintro ⟨deep, fits, sorted, safe, allFit, canonical, profile⟩
    exact ⟨⟨deep, fits, safe, allFit⟩,
      ⟨word_of_collectionFits fits, sorted, canonical⟩, profile⟩

theorem admitted_bits_iff {content : Bits} :
    Admitted limits depth (.bits content) ↔ depth ≤ limits.maxDepth.toNat ∧
      content.bytes.length ≤ limits.maxBitsBytes.toNat := by
  simp [Admitted, Fits, Canonical, NumbersWithinProfile]

section Collections

variable {value : Decoder → Except WireError (Value × Decoder)} {tag : UInt8}

section ValueAccepts

variable (valueAccepts : Accepts limits value (ValueSpelling limits depth))

include valueAccepts

theorem accepts_values :
    Accepts limits (values value) (CollectionSpelling limits (fun _ => True)
      (Admitted limits depth) wireBytes nodeCount) := by
  refine Appends.collection (fun start _ => ?_) (fun _ _ => id) trivial Nat.one_pos
    length_wireBytes_pos
  exact (valueAccepts.map fun item => start ++ [item]).congr (by simp [ValueSpelling])

theorem accepts_fields :
    Accepts limits (fields value) (CollectionSpelling limits
      (fun fields => Increasing compareText (fields.map Prod.fst))
      (fun field => TextFits limits field.1 ∧ Admitted limits depth field.2)
      (fun field => textBytes field.1 ++ wireBytes field.2) fun field => nodeCount field.2) := by
  refine Appends.collection (fun start sorted => ?_) ?_ .nil Nat.two_pos ?_
  · refine (accepts_text.bind fun key =>
      (valueAccepts.map fun item =>
        insertEntry compareText key item start).guard
          ((start.getLast?.any fun previous =>
            (compareText previous.1 key).isGE) = true) .nonCanonicalMapOrder).congr ?_
    intro result output nodes
    simp only [Bool.not_eq_true]
    constructor
    · rintro ⟨key, _, _, _, _, ⟨keyFits, rfl, rfl⟩, ⟨below, item, rfl, admitted, rfl, rfl⟩,
        rfl, rfl⟩
      have grown := (lastEntry_below_iff sorted key item).mp below
      exact ⟨(key, item), insertEntry_of_increasing grown, grown, ⟨keyFits, admitted⟩, rfl,
        by simp⟩
    · rintro ⟨⟨key, item⟩, rfl, grown, ⟨keyFits, admitted⟩, rfl, rfl⟩
      exact ⟨key, _, 0, _, _, ⟨keyFits, rfl, rfl⟩,
        ⟨(lastEntry_below_iff sorted key item).mpr grown, item,
          (insertEntry_of_increasing grown).symm, admitted, rfl, rfl⟩, rfl, by simp⟩
  · intro items more sorted
    rw [map_append] at sorted
    exact sorted.of_append
  · intro field
    have keyPos := length_textBytes_pos field.1
    have valuePos := length_wireBytes_pos field.2
    rw [length_append]
    omega

theorem accepts_entries :
    Accepts limits (entries value) (CollectionSpelling limits
      (fun entries => Increasing Value.cmp (entries.map Prod.fst))
      (fun entry => entry.1.isKeySafe = true ∧ Admitted limits depth entry.1 ∧
        Admitted limits depth entry.2)
      (fun entry => wireBytes entry.1 ++ wireBytes entry.2)
      fun entry => nodeCount entry.1 + nodeCount entry.2) := by
  refine Appends.collection (fun start sorted => ?_) ?_ .nil Nat.two_pos ?_
  · refine (valueAccepts.bind fun key =>
      ((valueAccepts.map fun item => insertEntry Value.cmp key item start).guard
          ((start.getLast?.any fun previous => (Value.cmp previous.1 key).isGE) = true)
          .nonCanonicalValueOrder).guard (key.isKeySafe = false) .invalidMapKey).congr ?_
    intro result output nodes
    simp only [Bool.not_eq_true, Bool.not_eq_false]
    constructor
    · rintro ⟨key, _, _, _, _, ⟨keyAdmitted, rfl, rfl⟩,
        ⟨safe, below, item, rfl, admitted, rfl, rfl⟩, rfl, rfl⟩
      have grown := (lastEntry_below_iff sorted key item).mp below
      exact ⟨(key, item), insertEntry_of_increasing grown, grown,
        ⟨safe, keyAdmitted, admitted⟩, rfl, rfl⟩
    · rintro ⟨⟨key, item⟩, rfl, grown, ⟨safe, keyAdmitted, admitted⟩, rfl, rfl⟩
      exact ⟨key, _, _, _, _, ⟨keyAdmitted, rfl, rfl⟩,
        ⟨safe, (lastEntry_below_iff sorted key item).mpr grown, item,
          (insertEntry_of_increasing grown).symm, admitted, rfl, rfl⟩, rfl, rfl⟩
  · intro items more sorted
    rw [map_append] at sorted
    exact sorted.of_append
  · intro entry
    have keyPos := length_wireBytes_pos entry.1
    have valuePos := length_wireBytes_pos entry.2
    rw [length_append]
    omega

theorem accepts_items :
    Accepts limits (items value) (CollectionSpelling limits (Increasing Value.cmp)
      (fun item => item.isKeySafe = true ∧ Admitted limits depth item) wireBytes nodeCount) := by
  refine Appends.collection (fun start sorted => ?_) (fun _ _ => Increasing.of_append) .nil
    Nat.one_pos length_wireBytes_pos
  refine (valueAccepts.bind fun item =>
    ((accepts_pure (insertItem Value.cmp item start)).guard
        ((start.getLast?.any fun previous => (Value.cmp previous item).isGE) = true)
        .nonCanonicalValueOrder).guard (item.isKeySafe = false) .invalidSetItem).congr ?_
  intro result output nodes
  simp only [Bool.not_eq_true, Bool.not_eq_false]
  constructor
  · rintro ⟨item, _, _, _, _, ⟨admitted, rfl, rfl⟩, ⟨safe, below, rfl, rfl, rfl⟩, rfl, rfl⟩
    have grown := (lastItem_below_iff sorted).mp below
    exact ⟨item, insertItem_of_increasing grown, grown, ⟨safe, admitted⟩, by simp, rfl⟩
  · rintro ⟨item, rfl, grown, ⟨safe, admitted⟩, rfl, rfl⟩
    exact ⟨item, _, _, [], 0, ⟨admitted, rfl, rfl⟩,
      ⟨safe, (lastItem_below_iff sorted).mpr grown,
        (insertItem_of_increasing grown).symm, rfl, rfl⟩, by simp, rfl⟩

end ValueAccepts

private theorem tag_of_wireBytes_eq {content : Value} {payload : List UInt8}
    (spelled : [tag] ++ payload = wireBytes content) : UInt8.ofNat content.discriminant = tag := by
  cases content <;> exact (cons.inj spelled).1.symm

private theorem Accepts.variant {σ : Type} {action : Decoder → Except WireError (σ × Decoder)}
    {spelling : Spelling σ} (accepts : Accepts limits action spelling) (make : σ → Value)
    (spelled : ∀ source output nodes, spelling source output nodes ↔
      Admitted limits depth (make source) ∧ [tag] ++ output = wireBytes (make source) ∧
        1 + nodes = nodeCount (make source))
    (tagged : ∀ content, UInt8.ofNat content.discriminant = tag →
      ∃ source, content = make source := by
        intro content tagged
        cases content <;> first
          | exact ⟨_, rfl⟩
          | simp [discriminant, valueNumber, valueText, valueBytes, valueList, valueObject,
              valueMap, valueSet, valueBits] at tagged) :
    Accepts limits (fun decoder => do
        let (source, decoder) ← action decoder
        return (make source, decoder))
      (fun content output nodes => Admitted limits depth content ∧
        [tag] ++ output = wireBytes content ∧ 1 + nodes = nodeCount content) := by
  refine (accepts.map make).congr ?_
  intro content output nodes
  constructor
  · rintro ⟨source, rfl, spells⟩
    exact (spelled source output nodes).mp spells
  · rintro ⟨admitted, bytesEq, nodesEq⟩
    obtain ⟨source, rfl⟩ := tagged content (tag_of_wireBytes_eq bytesEq)
    exact ⟨source, rfl, (spelled source output nodes).mpr ⟨admitted, bytesEq, nodesEq⟩⟩

theorem accepts_body (valueAccepts : Accepts limits value (ValueSpelling limits (depth + 1)))
    (deep : depth ≤ limits.maxDepth.toNat) (tag : UInt8) :
    Accepts limits (body value tag) (fun content output nodes =>
      Admitted limits depth content ∧ [tag] ++ output = wireBytes content ∧
        1 + nodes = nodeCount content) := by
  refine Accepts.ite _ ?_ fun notNumber => Accepts.ite _ ?_ fun notText =>
    Accepts.ite _ ?_ fun notBytes => Accepts.ite _ ?_ fun notList =>
    Accepts.ite _ ?_ fun notObject => Accepts.ite _ ?_ fun notTag =>
    Accepts.ite _ ?_ fun notMap => Accepts.ite _ ?_ fun notSet =>
    Accepts.ite _ ?_ fun notBits => ?_
  · rintro rfl
    refine accepts_number.variant Value.number fun source output nodes => ?_
    simp [admitted_number_iff, deep, wireBytes, nodeCount]
  · rintro rfl
    refine accepts_text.variant Value.text fun source output nodes => ?_
    simp [admitted_text_iff, deep, wireBytes, nodeCount]
  · rintro rfl
    refine (accepts_readFramed .byteStringBytes Limits.maxByteStringBytes).variant Value.bytes
      fun source output nodes => ?_
    simp [admitted_bytes_iff, deep, wireBytes, nodeCount]
  · rintro rfl
    refine (accepts_values valueAccepts).variant Value.list fun source output nodes => ?_
    simp [CollectionSpelling, admitted_list_iff, deep, wireBytes, nodeCount,
      wireBytesValues_eq_flatMap, nodeCountValues_eq_sum, and_assoc]
  · rintro rfl
    refine (accepts_fields valueAccepts).variant Value.object fun source output nodes => ?_
    simp [CollectionSpelling, admitted_object_iff, deep, wireBytes, nodeCount,
      wireBytesFields_eq_flatMap, nodeCountFields_eq_sum, and_assoc]
  · rintro rfl
    refine (accepts_text.bind fun name =>
      (accepts_fields valueAccepts).map (Value.tag name)).congr ?_
    intro content output nodes
    constructor
    · rintro ⟨name, _, _, _, _, ⟨nameFits, rfl, rfl⟩,
        ⟨contents, rfl, fits, sorted, all, rfl, rfl⟩, rfl, rfl⟩
      refine ⟨admitted_tag_iff.mpr ⟨nameFits, admitted_object_iff.mpr ⟨deep, fits, sorted, all⟩⟩,
        ?_, ?_⟩
      · rw [wireBytes, wireBytesFields_eq_flatMap]
      · rw [nodeCount, nodeCountFields_eq_sum, Nat.zero_add]
    · rintro ⟨admitted, bytesEq, nodesEq⟩
      have tagged := tag_of_wireBytes_eq bytesEq
      cases content <;> try (simp [discriminant, valueTag] at tagged; done)
      case tag name contents =>
        obtain ⟨nameFits, objectAdmitted⟩ := admitted_tag_iff.mp admitted
        obtain ⟨_, fits, sorted, all⟩ := admitted_object_iff.mp objectAdmitted
        rw [wireBytes, wireBytesFields_eq_flatMap, append_cancel_left_eq] at bytesEq
        rw [nodeCount, nodeCountFields_eq_sum, Nat.add_left_cancel_iff] at nodesEq
        subst bytesEq nodesEq
        exact ⟨name, _, 0, _, _, ⟨nameFits, rfl, rfl⟩,
          ⟨contents, rfl, fits, sorted, all, rfl, rfl⟩, rfl, (Nat.zero_add _).symm⟩
  · rintro rfl
    refine (accepts_entries valueAccepts).variant Value.map fun source output nodes => ?_
    simp [CollectionSpelling, admitted_map_iff, deep, wireBytes, nodeCount,
      wireBytesEntries_eq_flatMap, nodeCountEntries_eq_sum, and_assoc]
  · rintro rfl
    refine (accepts_items valueAccepts).variant Value.set fun source output nodes => ?_
    simp [CollectionSpelling, admitted_set_iff, deep, wireBytes, nodeCount,
      wireBytesValues_eq_flatMap, nodeCountValues_eq_sum, and_assoc]
  · rintro rfl
    refine accepts_bits.variant Value.bits fun source output nodes => ?_
    simp [admitted_bits_iff, deep, wireBytes, nodeCount]
  · refine (accepts_error (.unknownTag tag)).congr ?_
    intro content output nodes
    simp only [false_iff, not_and]
    intro _ bytesEq
    have tagged := tag_of_wireBytes_eq bytesEq
    subst tagged
    cases content <;> contradiction

end Collections

/-- The law of `Decoder.value`: with the right number of depths left it reads exactly the
wire bytes of admitted values. -/
theorem accepts_value (levels : Nat) :
    ∀ depth, levels + depth = limits.maxDepth.toNat + 1 →
      Accepts limits (value levels depth) (ValueSpelling limits depth) := by
  induction levels with
  | zero =>
    intro depth exhausted decoder within content final
    simp only [value, reduceCtorEq, false_iff, not_exists, not_and]
    rintro _ _ ⟨⟨fits, _⟩, _⟩
    have deep : depth ≤ limits.maxDepth.toNat := by
      cases content <;> exact fits.1
    omega
  | succ levels ih =>
    intro depth leftOver
    have deep : depth ≤ limits.maxDepth.toNat := by omega
    have below := ih (depth + 1) (by omega)
    refine ((accepts_enter depth).bind fun _ => accepts_byte.bind fun tag =>
      accepts_body below deep tag).congr ?_
    intro content output nodes
    constructor
    · rintro ⟨_, _, _, _, _, ⟨_, rfl, rfl⟩, ⟨tag, _, _, _, _, ⟨rfl, rfl⟩,
        ⟨admitted, bytesEq, nodesEq⟩, rfl, rfl⟩, rfl, rfl⟩
      exact ⟨admitted, bytesEq, by rw [← nodesEq, Nat.zero_add]⟩
    · rintro ⟨admitted, rfl, rfl⟩
      obtain ⟨tag, payload, split⟩ := exists_cons_of_length_pos (length_wireBytes_pos content)
      have counted : 1 + (nodeCount content - 1) = nodeCount content := by
        have := nodeCount_pos content
        omega
      exact ⟨(), [], 1, wireBytes content, nodeCount content - 1, ⟨deep, rfl, rfl⟩,
        ⟨tag, [tag], 0, payload, nodeCount content - 1, ⟨rfl, rfl⟩,
          ⟨admitted, split.symm, counted⟩, split, by simp⟩, rfl, counted.symm⟩

end Decoder

variable {bytes : List UInt8}

theorem checkHeader_eq_ok_iff {done : Unit} : checkHeader bytes = .ok done ↔ header <+: bytes := by
  constructor
  · intro accepted
    unfold checkHeader at accepted
    split at accepted
    · cases accepted
    split at accepted
    · cases accepted
    rename_i magicOk
    split at accepted
    · rename_i version versionAt
      split at accepted
      · cases accepted
      · rename_i versionOk
        obtain ⟨inside, isVersion⟩ := List.getElem?_eq_some_iff.mp versionAt
        rw [not_not] at magicOk versionOk
        have taken := take_append_getElem inside
        rw [magicOk, isVersion, versionOk] at taken
        rw [header, taken]
        exact take_prefix _ _
    · cases accepted
  · rintro ⟨_, rfl⟩
    simp [checkHeader, header]

/-- Decoding accepts exactly the messages of canonical values that encoding accepts and whose
numbers respect the default profile. -/
theorem decodeWithLimits_eq_ok_iff {limits : Limits} {value : Value} :
    decodeWithLimits bytes limits = .ok value ↔
      bytes = message value ∧ Encodable limits value ∧ value.Canonical ∧
        value.NumbersWithinProfile := by
  have law := Decoder.accepts_value limits.maxDepth.toNat 1 rfl
  have start {rest : List UInt8} (total : (header ++ rest).length ≤ limits.maxTotalBytes.toNat) :
      Decoder.Within limits
        { bytes := header ++ rest, position := header.length, limits := limits, nodes := 0 } := {
    limits_eq := rfl
    position_le := by simp
    length_lt := total.trans_lt (limit_lt_wordLimit limits.maxTotalBytes)
    nodes_le := Nat.zero_le _ }
  simp only [decodeWithLimits, bind_eq_ok_iff, checkLimit_eq_ok_iff, checkHeader_eq_ok_iff]
  constructor
  · rintro ⟨_, total, _, ⟨rest, rfl⟩, ⟨decoded, final⟩, decodedOk, done⟩
    obtain ⟨_, _, ⟨⟨fits, canonical, profile⟩, rfl, rfl⟩, ahead, counted, rfl⟩ :=
      (law _ (start total) decoded final).mp decodedOk
    split at done
    · rename_i atEnd
      obtain rfl := Except.ok.inj done
      simp only [Decoder.advance, length_append, Nat.add_left_cancel_iff,
        Nat.zero_add] at ahead atEnd counted
      obtain rfl := ahead.eq_of_length atEnd
      exact ⟨rfl, ⟨total, counted, fits⟩, canonical, profile⟩
    · cases done
  · rintro ⟨rfl, ⟨total, counted, fits⟩, canonical, profile⟩
    refine ⟨(), total, (), prefix_append _ _, (value, _),
      (law _ (start total) value _).mpr ⟨_, _, ⟨⟨fits, canonical, profile⟩, rfl, rfl⟩, ?_, ?_, rfl⟩,
      ?_⟩
    · simp [Decoder.rest]
    · simpa using counted
    · simp [Decoder.advance, message, pure, Except.pure]

end BoonCircuit.Wire
