import BoonCircuit.Wire.DecoderValue
import BoonCircuit.Wire.Encoder

/-!
# The encoder, and its round trip with the decoder

`Emits` is the law of one encoder action: from a state within the limits it succeeds
exactly when its own conditions hold and the extended state is within the limits, and
then it appends exactly the stated bytes.  Encoder and decoder agree on the message of
a value and on every limit, so each undoes the other.  They differ in one place: the
decoder rebuilds numbers under the default profile, while the encoder only measures
their components against the wire limits.
-/

namespace BoonCircuit.Wire

open Lib Data Checks Limits Except

namespace Encoder

/-- The buffer and the node counter respect their limits. -/
def Within (encoder : Encoder) : Prop :=
  encoder.bytes.length ≤ encoder.limits.maxTotalBytes.toNat ∧
    encoder.nodes ≤ encoder.limits.maxNodes.toNat

/-- The state after some bytes and nodes. -/
def advance (encoder : Encoder) (output : List UInt8) (nodes : Nat) : Encoder :=
  { encoder with bytes := encoder.bytes ++ output, nodes := encoder.nodes + nodes }

@[simp]
theorem advance_advance (encoder : Encoder) (first second : List UInt8) (left right : Nat) :
    (encoder.advance first left).advance second right =
      encoder.advance (first ++ second) (left + right) := by
  simp [advance, Nat.add_assoc]

variable {output : List UInt8} {nodes : Nat} {action : Encoder → Except WireError Encoder}
  {condition : Limits → Prop}

theorem Within.of_advance {encoder : Encoder}
    (within : (encoder.advance output nodes).Within) : encoder.Within := by
  unfold Within advance at *
  simp only [List.length_append] at within
  omega

/-- An action appends `output`, counts `nodes` and succeeds exactly under `condition`. -/
def Emits (action : Encoder → Except WireError Encoder) (output : List UInt8) (nodes : Nat)
    (condition : Limits → Prop) : Prop :=
  ∀ encoder : Encoder, encoder.Within → ∀ final : Encoder,
    (action encoder = .ok final ↔
      condition encoder.limits ∧ (encoder.advance output nodes).Within ∧
        final = encoder.advance output nodes)

variable {first second : Encoder → Except WireError Encoder} {firstOutput secondOutput : List UInt8}
  {firstCondition secondCondition : Limits → Prop}

theorem Emits.bind {firstNodes secondNodes : Nat}
    (firstEmits : Emits first firstOutput firstNodes firstCondition)
    (secondEmits : Emits second secondOutput secondNodes secondCondition) :
    Emits (fun encoder => first encoder >>= second) (firstOutput ++ secondOutput)
      (firstNodes + secondNodes)
      (fun limits => firstCondition limits ∧ secondCondition limits) := by
  intro encoder within final
  rw [bind_eq_ok_iff]
  constructor
  · rintro ⟨_, firstOk, secondOk⟩
    obtain ⟨firstHolds, firstWithin, rfl⟩ := (firstEmits encoder within _).mp firstOk
    obtain ⟨secondHolds, secondWithin, rfl⟩ := (secondEmits _ firstWithin _).mp secondOk
    rw [advance_advance] at secondWithin
    exact ⟨⟨firstHolds, secondHolds⟩, secondWithin, advance_advance _ _ _ _ _⟩
  · rintro ⟨⟨firstHolds, secondHolds⟩, bothWithin, rfl⟩
    rw [← advance_advance] at bothWithin ⊢
    have firstWithin := bothWithin.of_advance
    exact ⟨_, (firstEmits encoder within _).mpr ⟨firstHolds, firstWithin, rfl⟩,
      (secondEmits _ firstWithin _).mpr ⟨secondHolds, bothWithin, rfl⟩⟩

theorem Emits.check (kind : LimitKind) (actual : Nat)
    (limit : Limits → UInt64) (emits : Emits action output nodes condition) :
    Emits (fun encoder => do
        checkLimit kind actual (limit encoder.limits)
        action encoder) output nodes
      (fun limits => actual ≤ (limit limits).toNat ∧ condition limits) := by
  intro encoder within final
  rw [bind_eq_ok_iff]
  simp only [checkLimit_eq_ok_iff, exists_const, emits encoder within final, and_assoc]

theorem Emits.congr {output' : List UInt8} {nodes' : Nat} {condition' : Limits → Prop}
    (emits : Emits action output nodes condition) (sameOutput : output = output')
    (sameNodes : nodes = nodes') (sameCondition : ∀ limits, condition limits ↔ condition' limits) :
    Emits action output' nodes' condition' := by
  intro encoder within final
  rw [← sameCondition, ← sameOutput, ← sameNodes]
  exact emits encoder within final

theorem Emits.bindZero (firstEmits : Emits first firstOutput 0 firstCondition)
    (secondEmits : Emits second secondOutput nodes secondCondition) :
    Emits (fun encoder => first encoder >>= second) (firstOutput ++ secondOutput) nodes
      (fun limits => firstCondition limits ∧ secondCondition limits) :=
  (firstEmits.bind secondEmits).congr rfl (Nat.zero_add nodes) (fun _ => Iff.rfl)

theorem emits_ok : Emits (fun encoder => .ok encoder) [] 0 (fun _ => True) := by
  intro encoder within final
  have unchanged : encoder.advance [] 0 = encoder := by simp [advance]
  rw [unchanged]
  simp [within, eq_comm]

theorem emits_write (bytes : List UInt8) : Emits (write bytes) bytes 0 (fun _ => True) := by
  intro encoder within final
  have belowWord := limit_lt_wordLimit encoder.limits.maxTotalBytes
  have nodesWithin := within.2
  simp only [write, bind_eq_ok_iff, checkedAdd_eq_ok_iff, checkLimit_eq_ok_iff, true_and,
    exists_const, Within, advance, List.length_append]
  constructor
  · rintro ⟨_, ⟨_, rfl⟩, total, done⟩
    exact ⟨⟨total, nodesWithin⟩, (ok.inj done).symm⟩
  · rintro ⟨⟨total, _⟩, rfl⟩
    exact ⟨_, ⟨by omega, rfl⟩, total, rfl⟩

theorem emits_enter (depth : Nat) :
    Emits (enter depth) [] 1 (fun limits => depth ≤ limits.maxDepth.toNat) := by
  intro encoder within final
  have belowWord := limit_lt_wordLimit encoder.limits.maxNodes
  have bytesWithin := within.1
  simp only [enter, bind_eq_ok_iff, checkedAdd_eq_ok_iff, checkLimit_eq_ok_iff, exists_const,
    Within, advance, List.append_nil]
  constructor
  · rintro ⟨deep, _, ⟨_, rfl⟩, counted, done⟩
    exact ⟨deep, ⟨bytesWithin, counted⟩, (ok.inj done).symm⟩
  · rintro ⟨deep, ⟨_, counted⟩, rfl⟩
    exact ⟨deep, _, ⟨by omega, rfl⟩, counted, rfl⟩

theorem emits_byte (code : UInt8) : Emits (byte code) [code] 0 (fun _ => True) :=
  emits_write [code]

theorem emits_length (size : Nat) : Emits (length size) (lengthBytes size) 0 (fun _ => True) :=
  emits_write _

theorem emits_framed (bytes : List UInt8) :
    Emits (fun encoder => do
      let encoder ← encoder.length bytes.length
      encoder.write bytes) (framed bytes) 0 (fun _ => True) :=
  ((emits_length bytes.length).bind (emits_write bytes)).congr rfl rfl (by simp)

theorem emits_collectionLen (size : Nat) :
    Emits (collectionLen size) (lengthBytes size) 0 (fun limits => CollectionFits limits size) :=
  ((emits_length size).check .collectionLength size maxCollectionLength).congr rfl rfl
    (by simp [CollectionFits])

theorem emits_text (content : String) :
    Emits (text content) (textBytes content) 0 (fun limits => TextFits limits content) :=
  ((emits_framed (Text.utf8Bytes content)).check .textBytes _ maxTextBytes).congr rfl rfl
    (by simp [TextFits])

theorem emits_number (content : ExactNumber) :
    Emits (number content)
      ([content.sign.toByte] ++
        (framed content.numeratorMagnitudeBytes ++ framed content.denominatorBytes)) 0
      (fun limits => NumberFits limits content) := by
  have denominatorEmits := emits_framed content.denominatorBytes
  have framesEmit :=
    (emits_length content.numeratorMagnitudeBytes.length).bind
      ((emits_write content.numeratorMagnitudeBytes).bind denominatorEmits)
  have checkedEmits :=
    (framesEmit.check .numberComponentBytes content.denominatorBytes.length
      maxNumberComponentBytes).check .numberComponentBytes
      content.numeratorMagnitudeBytes.length maxNumberComponentBytes
  exact ((emits_byte content.sign.toByte).bind checkedEmits).congr (by simp [framed]) rfl
    (by simp [NumberFits])

theorem emits_tagged (depth : Nat) (tag : UInt8) {body : Encoder → Except WireError Encoder}
    (bodyEmits : Emits body output nodes condition) :
    Emits (fun encoder => do
        let encoder ← encoder.enter depth
        let encoder ← encoder.byte tag
        body encoder) ([tag] ++ output) (1 + nodes)
      (fun limits => depth ≤ limits.maxDepth.toNat ∧ condition limits) :=
  ((emits_enter depth).bind ((emits_byte tag).bind bodyEmits)).congr rfl (by omega) (by simp)

theorem Emits.guardKey (key : Value) (fault : WireError)
    (emits : Emits action output nodes condition) :
    Emits (fun encoder => do
        if key.isKeySafe = false then throw fault
        action encoder) output nodes
      (fun limits => key.isKeySafe = true ∧ condition limits) := by
  intro encoder within final
  cases safe : key.isKeySafe with
  | false => simp [throw, throwThe, MonadExceptOf.throw, bind_eq_ok_iff]
  | true => simpa [bind, bind, pure, pure] using emits encoder within final

mutual

theorem emits_value (content : Value) (depth : Nat) :
    Emits (value content depth) (wireBytes content) (nodeCount content)
      (fun limits => Fits limits content depth) := by
  cases content with
  | number content => exact emits_tagged depth valueNumber (emits_number content)
  | text content => exact emits_tagged depth valueText (emits_text content)
  | bytes content =>
    exact (emits_tagged depth valueBytes ((emits_framed content).check .byteStringBytes
      content.length maxByteStringBytes)).congr rfl rfl (by simp [Fits])
  | list contents =>
    exact emits_tagged depth valueList
      ((emits_collectionLen contents.length).bindZero (emits_values contents (depth + 1)))
  | object contents =>
    exact emits_tagged depth valueObject
      ((emits_collectionLen contents.length).bindZero (emits_fields contents (depth + 1)))
  | tag name contents =>
    exact emits_tagged depth valueTag ((emits_text name).bindZero
      ((emits_collectionLen contents.length).bindZero (emits_fields contents (depth + 1))))
  | map contents =>
    exact emits_tagged depth valueMap
      ((emits_collectionLen contents.length).bindZero (emits_entries contents (depth + 1)))
  | set contents =>
    exact emits_tagged depth valueSet
      ((emits_collectionLen contents.length).bindZero (emits_items contents (depth + 1)))
  | bits content =>
    exact (emits_tagged depth valueBits ((emits_length content.width).bindZero
      ((emits_write content.bytes).check .bitsBytes content.bytes.length
        maxBitsBytes))).congr rfl rfl (by simp [Fits])

theorem emits_values (contents : List Value) (depth : Nat) :
    Emits (values contents depth) (wireBytesValues contents) (nodeCountValues contents)
      (fun limits => FitsValues limits contents depth) := by
  match contents with
  | [] => exact emits_ok
  | content :: contents => exact (emits_value content depth).bind (emits_values contents depth)

theorem emits_fields (contents : List (String × Value)) (depth : Nat) :
    Emits (fields contents depth) (wireBytesFields contents) (nodeCountFields contents)
      (fun limits => FitsFields limits contents depth) := by
  match contents with
  | [] => exact emits_ok
  | (key, content) :: contents =>
    exact ((emits_text key).bindZero
      ((emits_value content depth).bind (emits_fields contents depth))).congr
        (by simp [wireBytesFields]) (by simp [nodeCountFields]) (fun _ => Iff.rfl)

theorem emits_entries (contents : List (Value × Value)) (depth : Nat) :
    Emits (entries contents depth) (wireBytesEntries contents) (nodeCountEntries contents)
      (fun limits => FitsEntries limits contents depth) := by
  match contents with
  | [] => exact emits_ok
  | (key, content) :: contents =>
    exact (((emits_value key depth).bind
      ((emits_value content depth).bind (emits_entries contents depth))).guardKey key
        .invalidMapKey).congr (by simp [wireBytesEntries])
        (by simp [nodeCountEntries, Nat.add_assoc]) (fun _ => Iff.rfl)

theorem emits_items (contents : List Value) (depth : Nat) :
    Emits (items contents depth) (wireBytesValues contents) (nodeCountValues contents)
      (fun limits => FitsItems limits contents depth) := by
  match contents with
  | [] => exact emits_ok
  | content :: contents =>
    exact ((emits_value content depth).bind (emits_items contents depth)).guardKey content
      .invalidSetItem

end

end Encoder

/-- Encoding succeeds exactly on encodable values, with their message. -/
theorem encodeWithLimits_eq_ok_iff {value : Value} {limits : Limits} {bytes : List UInt8} :
    encodeWithLimits value limits = .ok bytes ↔ Encodable limits value ∧ bytes = message value := by
  have law := (Encoder.emits_write header).bind (Encoder.emits_value value 1)
  have start : Encoder.Within { bytes := [], limits := limits, nodes := 0 } := by
    simp [Encoder.Within]
  have whole : encodeWithLimits value limits =
      (Encoder.write header { bytes := [], limits := limits, nodes := 0 } >>=
        Encoder.value value 1) >>= fun encoder => .ok encoder.bytes := by
    rw [bind_assoc]
    rfl
  rw [whole, bind_eq_ok_iff]
  constructor
  · rintro ⟨_, written, done⟩
    obtain ⟨⟨_, fits⟩, ⟨total, counted⟩, rfl⟩ := (law _ start _).mp written
    obtain rfl := ok.inj done
    simp only [Encoder.advance, Nat.zero_add] at total counted ⊢
    exact ⟨⟨total, counted, fits⟩, rfl⟩
  · rintro ⟨⟨total, counted, fits⟩, rfl⟩
    refine ⟨_, (law _ start _).mpr ⟨⟨trivial, fits⟩, ⟨?_, ?_⟩, rfl⟩, rfl⟩
    · simpa [Encoder.advance, message] using total
    · simpa [Encoder.advance] using counted

open Lib Data ExactNumber

/-- Under the same limits, decoding an encoding gives the value back exactly when its numbers
respect the default profile, and every accepted byte string is the encoding of the value it
decodes to. -/
theorem decode_encode_inverse (limits : Limits) :
    (∀ (value : CanonicalValue) (bytes : List UInt8),
      encodeWithLimits value.1 limits = .ok bytes →
        (decodeWithLimits bytes limits = .ok value.1 ↔ value.1.NumbersWithinProfile)) ∧
    (∀ (bytes : List UInt8) (value : Value), decodeWithLimits bytes limits = .ok value →
      value.Canonical ∧ encodeWithLimits value limits = .ok bytes) := by
  constructor
  · intro value bytes encoded
    obtain ⟨encodable, rfl⟩ := encodeWithLimits_eq_ok_iff.mp encoded
    rw [decodeWithLimits_eq_ok_iff]
    constructor
    · rintro ⟨_, _, _, profile⟩
      exact profile
    · intro profile
      exact ⟨rfl, encodable, value.2, profile⟩
  · intro bytes value decoded
    obtain ⟨spelled, encodable, canonical, _⟩ := decodeWithLimits_eq_ok_iff.mp decoded
    exact ⟨canonical, encodeWithLimits_eq_ok_iff.mpr ⟨encodable, spelled⟩⟩

/-- Both directions on a set of two texts. -/
theorem decode_encode_inverse_texts :
    (decodeWithLimits [0x42, 0x57, 0x56, 5, 7, 2, 1, 1, 65, 1, 1, 66] Limits.default =
        .ok (.set [.text "A", .text "B"]) ↔
      (Value.set [.text "A", .text "B"]).NumbersWithinProfile) ∧
    encodeWithLimits (.set [.text "A", .text "B"]) Limits.default =
      .ok [0x42, 0x57, 0x56, 5, 7, 2, 1, 1, 65, 1, 1, 66] :=
  ⟨(decode_encode_inverse Limits.default).1 ⟨.set [.text "A", .text "B"], by decide⟩ _ (by decide),
    ((decode_encode_inverse Limits.default).2 _ _ (by decide +kernel)).2⟩

/-- The default limits with room for one more byte per number component. -/
def wideLimits : Limits :=
  { Limits.default with maxNumberComponentBytes := 128 * 1024 + 1 }

private theorem encodable_wide {number : ExactNumber}
    (numeratorLe : number.numeratorMagnitudeBytes.length ≤ 131073)
    (denominatorEq : number.denominatorBytes = [1]) : Encodable wideLimits (.number number) := by
  have prefixLe (size : Nat) : (lengthBytes size).length ≤ 10 := Varint.length_encode_le 10 size
  have numeratorPrefix := prefixLe number.numeratorMagnitudeBytes.length
  have denominatorPrefix := prefixLe 1
  have total : wideLimits.maxTotalBytes.toNat = 16777216 := by decide
  have component : wideLimits.maxNumberComponentBytes.toNat = 131073 := by decide
  have counted : 1 ≤ wideLimits.maxNodes.toNat := by decide
  have deep : 1 ≤ wideLimits.maxDepth.toNat := by decide
  refine ⟨?_, counted, deep, ?_, ?_⟩
  · rw [total]
    simp only [message, wireBytes, framed, denominatorEq, List.length_append, List.length_singleton]
    have headerLength : header.length = 4 := rfl
    omega
  · rw [component]
    exact numeratorLe
  · rw [denominatorEq]
    decide

/-- A whole number one bit wider than the default profile. -/
def wideNumber : ExactNumber :=
  ofInt (2 ^ maxNumberComponentBits : Nat)

private theorem natAbs_wideNumber : wideNumber.numerator.natAbs = 2 ^ maxNumberComponentBits :=
  Int.natAbs_natCast _

private theorem length_wideNumber_le : wideNumber.numeratorMagnitudeBytes.length ≤ 131073 := by
  rw [numeratorMagnitudeBytes_eq_toBytes]
  exact BigEndian.length_toBytes_two_pow_le (by norm_num [maxNumberComponentBits])

private theorem denominatorBytes_wideNumber : wideNumber.denominatorBytes = [1] := by
  have one : BigEndian.toBytes 1 = [1] := by decide
  exact one

private theorem componentBits_wideNumber :
    wideNumber.componentBits = (maxNumberComponentBits + 1, 1) := by
  rw [componentBits, natAbs_wideNumber, Nat.size_pow]
  rfl

private theorem wideNumber_outside : ¬ wideNumber.WithinProfile .default := by
  rintro ⟨within, _⟩
  rw [componentBits_wideNumber] at within
  exact Nat.not_succ_le_self _ within

/-- The public constructor builds the wide number under a wide profile, and it is encoded under
widened limits, but its encoding does not decode to it. -/
theorem wideNumber_not_decoded :
    fromRatioWithProfile (2 ^ maxNumberComponentBits : Nat) 1
        { ExactNumberSemanticProfileV1.default with
          maxNumeratorBits := maxNumberComponentBits + 1 } = .ok wideNumber ∧
      ∃ bytes, encodeWithLimits (.number wideNumber) wideLimits = .ok bytes ∧
        decodeWithLimits bytes wideLimits ≠ .ok (.number wideNumber) := by
  constructor
  · apply fromRatioWithProfile_one
    change wideNumber.WithinProfile _
    rw [WithinProfile, componentBits_wideNumber]
    exact ⟨le_rfl, by decide⟩
  · have encodable := encodable_wide length_wideNumber_le denominatorBytes_wideNumber
    refine ⟨message (.number wideNumber), encodeWithLimits_eq_ok_iff.mpr ⟨encodable, rfl⟩, ?_⟩
    intro decoded
    obtain ⟨_, _, _, profile⟩ := decodeWithLimits_eq_ok_iff.mp decoded
    exact wideNumber_outside profile

end BoonCircuit.Wire
