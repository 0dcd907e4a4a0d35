import BoonCircuit.Wire.Decoder

/-!
# What the decoder accepts

`Accepts` is the law of one decoder action: from a cursor inside the input it
returns a result exactly when the input continues with bytes that its format
relates to the result, and it then moves behind those bytes.  The law composes
under sequencing and counted loops.  The format of `Decoder.value` relates a
value to `wireBytes`, so the decoder accepts one spelling of each value.
-/

namespace BoonCircuit.Wire

open Lib Data Checks Varint List

/-- Which bytes and how many nodes spell a result. -/
def Spelling (α : Type) : Type :=
  α → List UInt8 → Nat → Prop

namespace Decoder

variable {α β : Type} {limits : Limits} (decoder : Decoder)

/-- The unread input. -/
def rest : List UInt8 :=
  decoder.bytes.drop decoder.position

/-- The cursor is inside an addressable input and the node counter within its limit. -/
structure Within (limits : Limits) (decoder : Decoder) : Prop where
  limits_eq : decoder.limits = limits
  position_le : decoder.position ≤ decoder.bytes.length
  length_lt : decoder.bytes.length < wordLimit
  nodes_le : decoder.nodes ≤ limits.maxNodes.toNat

/-- The state after some bytes and nodes. -/
def advance (length nodes : Nat) : Decoder :=
  { decoder with position := decoder.position + length, nodes := decoder.nodes + nodes }

@[simp]
theorem advance_advance (first second left right : Nat) :
    (decoder.advance first left).advance second right =
      decoder.advance (first + second) (left + right) := by
  simp [advance, Nat.add_assoc]

theorem rest_advance (length nodes : Nat) :
    (decoder.advance length nodes).rest = decoder.rest.drop length := by
  simp [rest, advance]

theorem length_rest : decoder.rest.length = decoder.bytes.length - decoder.position := by
  simp [rest]

theorem Within.advance {decoder : Decoder} (within : decoder.Within limits)
    {output : List UInt8} {nodes : Nat} (ahead : output <+: decoder.rest)
    (counted : decoder.nodes + nodes ≤ limits.maxNodes.toNat) :
    (decoder.advance output.length nodes).Within limits := { within with
  position_le := by
    have short := ahead.length_le
    rw [length_rest] at short
    have := within.position_le
    simp only [Decoder.advance]
    omega
  nodes_le := counted }

/-- An action reads exactly the spellings of its results. -/
def Accepts (limits : Limits) (action : Decoder → Except WireError (α × Decoder))
    (spelling : Spelling α) : Prop :=
  ∀ decoder, decoder.Within limits → ∀ result final,
    (action decoder = .ok (result, final) ↔
      ∃ output nodes, spelling result output nodes ∧ output <+: decoder.rest ∧
        decoder.nodes + nodes ≤ limits.maxNodes.toNat ∧
        final = decoder.advance output.length nodes)

/-- Spellings of two reads in a row. -/
def Spelling.bind (first : Spelling α) (next : α → Spelling β) : Spelling β :=
  fun result output nodes => ∃ middle firstOutput firstNodes nextOutput nextNodes,
    first middle firstOutput firstNodes ∧ next middle result nextOutput nextNodes ∧
      output = firstOutput ++ nextOutput ∧ nodes = firstNodes + nextNodes

variable {action : Decoder → Except WireError (α × Decoder)}
  {next : α → Decoder → Except WireError (β × Decoder)} {following : α → Spelling β}
  {spelling first : Spelling α}

theorem Accepts.bindOf (firstAccepts : Accepts limits action first)
    (nextAccepts : ∀ middle output nodes, first middle output nodes →
      Accepts limits (next middle) (following middle)) :
    Accepts limits (fun decoder => do
      let (middle, decoder) ← action decoder
      next middle decoder) (Spelling.bind first following) := by
  intro decoder within result final
  rw [bind_eq_ok_iff]
  constructor
  · rintro ⟨⟨middle, between⟩, firstOk, nextOk⟩
    obtain ⟨firstOutput, firstNodes, firstSpells, firstAhead, firstCounted, rfl⟩ :=
      (firstAccepts decoder within middle between).mp firstOk
    obtain ⟨nextOutput, nextNodes, nextSpells, nextAhead, nextCounted, rfl⟩ :=
      (nextAccepts middle _ _ firstSpells _ (within.advance firstAhead firstCounted) result
        final).mp nextOk
    refine ⟨firstOutput ++ nextOutput, firstNodes + nextNodes,
      ⟨middle, _, _, _, _, firstSpells, nextSpells, rfl, rfl⟩, ?_, ?_, ?_⟩
    · rw [rest_advance] at nextAhead
      obtain ⟨suffix, split⟩ := firstAhead
      rw [← split, drop_left] at nextAhead
      rw [← split]
      exact (prefix_append_right_inj firstOutput).mpr nextAhead
    · simpa [advance, Nat.add_assoc] using nextCounted
    · simp
  · rintro ⟨_, _, ⟨middle, firstOutput, firstNodes, nextOutput, nextNodes, firstSpells,
      nextSpells, rfl, rfl⟩, ahead, counted, rfl⟩
    have firstAhead : firstOutput <+: decoder.rest :=
      (prefix_append firstOutput nextOutput).trans ahead
    have firstCounted : decoder.nodes + firstNodes ≤ limits.maxNodes.toNat := by omega
    refine ⟨(middle, decoder.advance firstOutput.length firstNodes),
      (firstAccepts decoder within _ _).mpr
        ⟨firstOutput, firstNodes, firstSpells, firstAhead, firstCounted, rfl⟩, ?_⟩
    refine (nextAccepts middle _ _ firstSpells _ (within.advance firstAhead firstCounted)
      result _).mpr ⟨nextOutput, nextNodes, nextSpells, ?_, ?_, ?_⟩
    · rw [rest_advance]
      obtain ⟨suffix, split⟩ := ahead
      rw [← split, append_assoc, drop_left]
      exact prefix_append nextOutput suffix
    · simpa [advance, Nat.add_assoc] using counted
    · simp

theorem Accepts.bind (firstAccepts : Accepts limits action first)
    (nextAccepts : ∀ middle, Accepts limits (next middle) (following middle)) :
    Accepts limits (fun decoder => do
      let (middle, decoder) ← action decoder
      next middle decoder) (Spelling.bind first following) :=
  firstAccepts.bindOf fun middle _ _ _ => nextAccepts middle

theorem Accepts.congr {spelling' : Spelling α} (accepts : Accepts limits action spelling)
    (same : ∀ result output nodes, spelling result output nodes ↔ spelling' result output nodes) :
    Accepts limits action spelling' := by
  intro decoder within result final
  simp only [← same]
  exact accepts decoder within result final

/-- Nothing is spelled by the empty string, except one result. -/
def Spelling.pure (value : α) : Spelling α :=
  fun result output nodes => result = value ∧ output = [] ∧ nodes = 0

theorem accepts_pure (value : α) :
    Accepts limits (fun decoder => .ok (value, decoder)) (Spelling.pure value) := by
  intro decoder within result final
  constructor
  · intro done
    obtain ⟨rfl, rfl⟩ := Prod.mk.inj (Except.ok.inj done)
    exact ⟨[], 0, ⟨rfl, rfl, rfl⟩, nil_prefix, within.nodes_le, rfl⟩
  · rintro ⟨_, _, ⟨rfl, rfl, rfl⟩, _, _, rfl⟩
    rfl

theorem Accepts.map (accepts : Accepts limits action spelling) (make : α → β) :
    Accepts limits (fun decoder => do
        let (result, decoder) ← action decoder
        return (make result, decoder))
      (fun result output nodes =>
        ∃ source, result = make source ∧ spelling source output nodes) := by
  refine (accepts.bind fun middle => accepts_pure (make middle)).congr ?_
  intro result output nodes
  constructor
  · rintro ⟨middle, _, _, _, _, spells, ⟨rfl, rfl, rfl⟩, rfl, rfl⟩
    exact ⟨middle, rfl, by simpa using spells⟩
  · rintro ⟨source, rfl, spells⟩
    exact ⟨source, output, nodes, [], 0, spells, ⟨rfl, rfl, rfl⟩, by simp, by simp⟩

theorem accepts_error (fault : WireError) :
    Accepts limits (fun _ => (.error fault : Except WireError (α × Decoder)))
      (fun _ _ _ => False) := by
  intro decoder _ result final
  simp

theorem Accepts.guard (accepts : Accepts limits action spelling) (refused : Prop)
    [Decidable refused] (fault : WireError) :
    Accepts limits (fun decoder => do
        if refused then throw fault
        action decoder)
      (fun result output nodes => ¬ refused ∧ spelling result output nodes) := by
  intro decoder within result final
  by_cases refuse : refused
  · simp [refuse, bind_eq_ok_iff]
  · simpa [refuse, bind, Except.bind, Pure.pure, Except.pure] using
      accepts decoder within result final

theorem Accepts.lift (outcome : Except WireError α)
    (nextAccepts : ∀ middle, Accepts limits (next middle) (following middle)) :
    Accepts limits (fun decoder => do
        let middle ← outcome
        next middle decoder)
      (fun result output nodes =>
        ∃ middle, outcome = .ok middle ∧ following middle result output nodes) := by
  intro decoder within result final
  cases outcome with
  | error => simp [bind_eq_ok_iff]
  | ok middle => simpa [bind_eq_ok_iff] using nextAccepts middle decoder within result final

theorem Accepts.check (accepts : Accepts limits action spelling) (kind : LimitKind)
    (actual : Nat) (limit : Limits → UInt64) :
    Accepts limits (fun decoder => do
        checkLimit kind actual (limit decoder.limits)
        action decoder)
      (fun result output nodes =>
        actual ≤ (limit limits).toNat ∧ spelling result output nodes) := by
  intro decoder within result final
  rw [bind_eq_ok_iff]
  simp only [checkLimit_eq_ok_iff, exists_and_left, exists_const, within.limits_eq,
    accepts decoder within result final, and_assoc]

theorem accepts_byte :
    Accepts limits byte (fun code output nodes => output = [code] ∧ nodes = 0) := by
  intro decoder within code final
  have head : decoder.bytes[decoder.position]? = decoder.rest.head? := by
    rw [rest, head?_drop]
  unfold byte
  rw [head]
  cases unread : decoder.rest with
  | nil => simp
  | cons first =>
    simp only [head?_cons, Except.ok.injEq, Prod.mk.injEq]
    constructor
    · rintro ⟨rfl, rfl⟩
      exact ⟨[first], 0, ⟨rfl, rfl⟩, by simp, within.nodes_le, rfl⟩
    · rintro ⟨_, _, ⟨rfl, rfl⟩, ahead, _, rfl⟩
      simp only [cons_prefix_cons, nil_prefix, and_true] at ahead
      exact ⟨ahead.symm, rfl⟩

theorem accepts_read (size : Nat) :
    Accepts limits (read size) (fun bytes output nodes =>
      bytes.length = size ∧ output = bytes ∧ nodes = 0) := by
  intro decoder within bytes final
  have positionLe := within.position_le
  have lengthLt := within.length_lt
  simp only [read, bind_eq_ok_iff, checkedAdd_eq_ok_iff]
  constructor
  · rintro ⟨_, ⟨_, rfl⟩, done⟩
    split at done
    · rename_i inside
      obtain ⟨rfl, rfl⟩ := Prod.mk.inj (Except.ok.inj done)
      have taken : (decoder.rest.take size).length = size := by
        rw [length_take, length_rest]
        omega
      exact ⟨decoder.rest.take size, 0, ⟨taken, rfl, rfl⟩, take_prefix _ _,
        within.nodes_le, by rw [taken]; rfl⟩
    · cases done
  · rintro ⟨output, _, ⟨rfl, rfl, rfl⟩, ahead, _, rfl⟩
    have short := ahead.length_le
    rw [length_rest] at short
    refine ⟨decoder.position + output.length, ⟨by omega, rfl⟩, ?_⟩
    rw [if_pos (by omega)]
    have same : (decoder.bytes.drop decoder.position).take output.length = output :=
      (prefix_iff_eq_take.mp ahead).symm
    rw [same]
    rfl

theorem accepts_enter (depth : Nat) :
    Accepts limits (enter depth) (fun _ output nodes =>
      depth ≤ limits.maxDepth.toNat ∧ output = [] ∧ nodes = 1) := by
  intro decoder within result final
  have belowWord := limit_lt_wordLimit limits.maxNodes
  simp only [enter, bind_eq_ok_iff, checkedAdd_eq_ok_iff, checkLimit_eq_ok_iff, exists_const,
    within.limits_eq]
  constructor
  · rintro ⟨deep, _, ⟨_, rfl⟩, counted, done⟩
    obtain ⟨_, rfl⟩ := Prod.mk.inj (Except.ok.inj done)
    exact ⟨[], 1, ⟨deep, rfl, rfl⟩, nil_prefix, counted, by
      simp [advance, within.limits_eq]⟩
  · rintro ⟨_, _, ⟨deep, rfl, rfl⟩, _, counted, rfl⟩
    refine ⟨deep, _, ⟨by omega, rfl⟩, counted, ?_⟩
    simp [advance, within.limits_eq, pure, Except.pure]

theorem Accepts.ite {first second : Decoder → Except WireError (α × Decoder)} (condition : Prop)
    [Decidable condition] (firstAccepts : condition → Accepts limits first spelling)
    (secondAccepts : ¬ condition → Accepts limits second spelling) :
    Accepts limits (fun decoder => if condition then first decoder else second decoder)
      spelling := by
  by_cases holds : condition
  · simpa [holds] using firstAccepts holds
  · simpa [holds] using secondAccepts holds

theorem Accepts.either {first second : Decoder → Except WireError (α × Decoder)}
    {firstSpelling secondSpelling : Spelling α} (condition : Prop) [Decidable condition]
    (firstAccepts : Accepts limits first firstSpelling)
    (secondAccepts : Accepts limits second secondSpelling) :
    Accepts limits (fun decoder => if condition then first decoder else second decoder)
      (fun result output nodes => (condition ∧ firstSpelling result output nodes) ∨
        (¬ condition ∧ secondSpelling result output nodes)) :=
  Accepts.ite condition
    (fun holds => firstAccepts.congr (by simp [holds]))
    (fun fails => secondAccepts.congr (by simp [fails]))

private theorem capacity_succ {index : Nat} (early : index ≤ 8) :
    2 ^ (64 - index * 7) = 2 ^ (64 - (index + 1) * 7) * 128 := by
  have exponent : 64 - index * 7 = (64 - (index + 1) * 7) + 7 := by omega
  rw [exponent, pow_add]
  norm_num

/-- At an index, the loop reads the minimal string of the groups that remain; behind the
first group there must be something left. -/
private theorem accepts_lengthFrom (left : Nat) :
    ∀ index value, left + index = 10 → value < 2 ^ (index * 7) →
      Accepts limits (lengthFrom left index value) (fun result output nodes =>
        ∃ high, result = value + high * 2 ^ (index * 7) ∧ high < 2 ^ (64 - index * 7) ∧
          (0 < index → 0 < high) ∧ output = encode left high ∧ nodes = 0) := by
  induction left with
  | zero =>
    intro index value count below
    obtain rfl : index = 10 := by omega
    refine (accepts_error .varintOverflow).congr ?_
    intro result output nodes
    simp only [false_iff, not_exists]
    rintro high ⟨_, small, positive, _⟩
    omega
  | succ left ih =>
    intro index value count below
    have shifted (payload : Nat) : value ||| payload <<< (index * 7) =
        value + payload * 2 ^ (index * 7) := or_shiftLeft_eq below
    have weight : 2 ^ ((index + 1) * 7) = 128 * 2 ^ (index * 7) := by
      ring
    have step (code : UInt8) :
        Accepts limits (fun decoder => do
          if index = 9 ∧ 1 < (code &&& 0x7f).toNat then throw .varintOverflow
          let value := value ||| (code &&& 0x7f).toNat <<< (index * 7)
          if code &&& 0x80 = 0 then
            if 0 < index ∧ (code &&& 0x7f).toNat = 0 then throw .nonCanonicalVarint
            return (value, decoder)
          else lengthFrom left (index + 1) value decoder) _ :=
      Accepts.guard (Accepts.either (code &&& 0x80 = 0)
        ((accepts_pure (value ||| (code &&& 0x7f).toNat <<< (index * 7))).guard
          (0 < index ∧ (code &&& 0x7f).toNat = 0) .nonCanonicalVarint)
        (ih (index + 1) (value ||| (code &&& 0x7f).toNat <<< (index * 7)) (by omega) (by
          have payloadLt : (code &&& 0x7f).toNat < 128 := by
            rw [toNat_and_payload]
            exact Nat.mod_lt _ (by norm_num)
          rw [shifted, weight]
          calc value + (code &&& 0x7f).toNat * 2 ^ (index * 7)
              < (1 + (code &&& 0x7f).toNat) * 2 ^ (index * 7) := by
                rw [Nat.add_mul]
                omega
            _ ≤ 128 * 2 ^ (index * 7) := Nat.mul_le_mul_right _ (by omega))))
        (index = 9 ∧ 1 < (code &&& 0x7f).toNat) .varintOverflow
    refine (accepts_byte.bind step).congr ?_
    intro result output nodes
    simp only [shifted, toNat_and_payload, and_continuation_eq_zero_iff]
    constructor
    · rintro ⟨code, _, _, _, _, ⟨rfl, rfl⟩, ⟨bounded, final | continued⟩, rfl, rfl⟩
      · obtain ⟨isFinal, minimal, rfl, rfl, rfl⟩ := final
        rw [Nat.mod_eq_of_lt isFinal] at bounded minimal ⊢
        refine ⟨code.toNat, rfl, ?_, by omega, ?_, rfl⟩
        · rcases Nat.lt_or_ge 8 index with late | early
          · obtain rfl : index = 9 := by omega
            omega
          · rw [capacity_succ early]
            exact isFinal.trans_le (Nat.le_mul_of_pos_left 128 (Nat.two_pow_pos _))
        · rw [encode_of_lt isFinal, UInt8.ofNat_toNat]
          rfl
      · obtain ⟨more, high, rfl, small, positive, rfl, rfl⟩ := continued
        have early : index ≤ 8 := by
          by_contra late
          obtain rfl : index = 9 := by omega
          omega
        refine ⟨code.toNat % 128 + 128 * high, ?_, ?_, by omega, ?_, rfl⟩
        · rw [weight]
          ring
        · rw [capacity_succ early]
          omega
        · have byteLt := code.toNat_lt
          have low : (code.toNat % 128 + 128 * high) % 128 + 128 = code.toNat := by omega
          have quotient : (code.toNat % 128 + 128 * high) / 128 = high := by omega
          rw [encode_of_le (by omega), low, quotient, UInt8.ofNat_toNat]
          rfl
    · rintro ⟨high, rfl, small, positive, rfl, rfl⟩
      rcases Nat.lt_or_ge high 128 with isFinal | more
      · have code := toNat_ofNat_of_lt isFinal
        refine ⟨UInt8.ofNat high, [UInt8.ofNat high], 0, [], 0, ⟨rfl, rfl⟩, ⟨?_, .inl ?_⟩,
          encode_of_lt isFinal, rfl⟩
        · rw [code]
          rintro ⟨rfl, _⟩
          omega
        · rw [code, Nat.mod_eq_of_lt isFinal]
          exact ⟨isFinal, by omega, rfl, rfl, rfl⟩
      · have early : index ≤ 8 := by
          by_contra late
          obtain rfl : index = 9 := by omega
          omega
        have code := toNat_ofNat_continued high
        refine ⟨UInt8.ofNat (high % 128 + 128), [UInt8.ofNat (high % 128 + 128)], 0,
          encode left (high / 128), 0, ⟨rfl, rfl⟩, ⟨by omega, .inr ?_⟩,
          encode_of_le more, rfl⟩
        rw [code]
        refine ⟨by omega, high / 128, ?_, ?_, by omega, rfl, rfl⟩
        · have split : high = (high % 128 + 128) % 128 + 128 * (high / 128) := by omega
          conv_lhs => rw [split]
          ring
        · rw [capacity_succ early] at small
          omega

theorem accepts_length :
    Accepts limits length (fun size output nodes =>
      size < wordLimit ∧ output = lengthBytes size ∧ nodes = 0) := by
  refine (accepts_lengthFrom 10 0 0 rfl (by norm_num)).congr ?_
  intro size output nodes
  simp only [Nat.zero_mul, pow_zero, Nat.mul_one, Nat.zero_add, lt_irrefl, false_implies, true_and,
    exists_eq_left', wordLimit, lengthBytes]

theorem accepts_readFramed (kind : LimitKind) (limit : Limits → UInt64) :
    Accepts limits (readFramed kind limit) (fun bytes output nodes =>
      bytes.length ≤ (limit limits).toNat ∧ output = framed bytes ∧ nodes = 0) := by
  refine (accepts_length.bind fun size =>
    (accepts_read size).check kind size limit).congr ?_
  intro bytes output nodes
  constructor
  · rintro ⟨size, _, _, _, _, ⟨_, rfl, rfl⟩, ⟨bounded, rfl, rfl, rfl⟩, rfl, rfl⟩
    exact ⟨bounded, rfl, rfl⟩
  · rintro ⟨bounded, rfl, rfl⟩
    have fits := bounded.trans_lt (limit_lt_wordLimit (limit limits))
    exact ⟨_, _, _, _, _, ⟨fits, rfl, rfl⟩, ⟨bounded, rfl, rfl, rfl⟩, rfl, rfl⟩

section Loops

variable {γ : Type} {step : List γ → Decoder → Except WireError (List γ × Decoder)}
  {good : List γ → Prop} {admitted : γ → Prop} {bytesOf : γ → List UInt8} {nodesOf : γ → Nat}
  {minimum : Nat}

/-- A loop step that appends one admitted item and keeps the items so far good. -/
def Appends (limits : Limits) (step : List γ → Decoder → Except WireError (List γ × Decoder))
    (good : List γ → Prop) (admitted : γ → Prop) (bytesOf : γ → List UInt8)
    (nodesOf : γ → Nat) : Prop :=
  ∀ start, good start → Accepts limits (step start) (fun result output nodes =>
    ∃ item, result = start ++ [item] ∧ good (start ++ [item]) ∧ admitted item ∧
      output = bytesOf item ∧ nodes = nodesOf item)

/-- Spellings of `count` admitted items behind the ones read so far. -/
def ItemsSpelling (good : List γ → Prop) (admitted : γ → Prop) (bytesOf : γ → List UInt8)
    (nodesOf : γ → Nat) (count : Nat) (start : List γ) : Spelling (List γ) :=
  fun result output nodes => ∃ items, items.length = count ∧ result = start ++ items ∧
    good (start ++ items) ∧ (∀ item ∈ items, admitted item) ∧
    output = items.flatMap bytesOf ∧ nodes = (items.map nodesOf).sum

/-- Spellings of a collection: its length, then its items. -/
def CollectionSpelling (limits : Limits) (good : List γ → Prop) (admitted : γ → Prop)
    (bytesOf : γ → List UInt8) (nodesOf : γ → Nat) : Spelling (List γ) :=
  fun items output nodes => CollectionFits limits items.length ∧ good items ∧
    (∀ item ∈ items, admitted item) ∧
    output = lengthBytes items.length ++ items.flatMap bytesOf ∧ nodes = (items.map nodesOf).sum

/-- The loop reads the concatenation of the item strings. -/
theorem Appends.forCount (appends : Appends limits step good admitted bytesOf nodesOf)
    (goodPrefix : ∀ items more, good (items ++ more) → good items) (count : Nat)
    (start : List γ) (startGood : good start) :
    Accepts limits (forCount step count start)
      (ItemsSpelling good admitted bytesOf nodesOf count start) := by
  induction count generalizing start with
  | zero =>
    refine (accepts_pure start).congr ?_
    intro result output nodes
    constructor
    · rintro ⟨rfl, rfl, rfl⟩
      exact ⟨[], rfl, by simp, by simpa using startGood, by simp, rfl, rfl⟩
    · rintro ⟨items, empty, rfl, _, _, rfl, rfl⟩
      obtain rfl := length_eq_zero_iff.mp empty
      exact ⟨by simp, rfl, rfl⟩
  | succ count ih =>
    have following : ∀ middle output nodes,
        (∃ item, middle = start ++ [item] ∧ good (start ++ [item]) ∧ admitted item ∧
          output = bytesOf item ∧ nodes = nodesOf item) →
        Accepts limits (Decoder.forCount step count middle)
          (ItemsSpelling good admitted bytesOf nodesOf count middle) := by
      rintro _ _ _ ⟨item, rfl, grown, _⟩
      exact ih _ grown
    refine ((appends start startGood).bindOf following).congr ?_
    intro result output nodes
    constructor
    · rintro ⟨_, _, _, _, _, ⟨item, rfl, _, ok, rfl, rfl⟩,
        ⟨items, rfl, rfl, final, allOk, rfl, rfl⟩, rfl, rfl⟩
      refine ⟨item :: items, rfl, by simp, by simpa using final, ?_, rfl, rfl⟩
      simpa using ⟨ok, allOk⟩
    · rintro ⟨items, size, rfl, final, allOk, rfl, rfl⟩
      cases items with
      | nil => simp at size
      | cons item items =>
        have grown : good (start ++ [item]) :=
          goodPrefix (start ++ [item]) items (by simpa using final)
        refine ⟨start ++ [item], bytesOf item, nodesOf item, items.flatMap bytesOf,
          (items.map nodesOf).sum, ⟨item, rfl, grown, allOk item (by simp), rfl, rfl⟩,
          ⟨items, by simpa using size, by simp, by simpa using final, ?_, rfl, rfl⟩,
          rfl, rfl⟩
        exact fun other otherMem => allOk other (mem_cons_of_mem item otherMem)

theorem length_flatMap_ge (long : ∀ item, minimum ≤ (bytesOf item).length)
    (items : List γ) : items.length * minimum ≤ (items.flatMap bytesOf).length := by
  induction items with
  | nil => simp
  | cons item =>
    have itemLong := long item
    rw [flatMap_cons, length_append, length_cons, Nat.succ_mul]
    omega

/-- A collection: its count within the limit, then its items.  The early test of the count
against the unread input never refuses an input that holds the items. -/
theorem Appends.collection (appends : Appends limits step good admitted bytesOf nodesOf)
    (goodPrefix : ∀ items more, good (items ++ more) → good items) (goodNil : good [])
    (minimumPos : 0 < minimum) (long : ∀ item, minimum ≤ (bytesOf item).length) :
    Accepts limits (fun decoder => do
        let (count, decoder) ← decoder.collectionLen minimum
        Decoder.forCount step count [] decoder)
      (CollectionSpelling limits good admitted bytesOf nodesOf) := by
  have loop (count : Nat) := appends.forCount goodPrefix count [] goodNil
  have untested : Accepts limits (fun decoder => do
      let (count, decoder) ← decoder.length
      checkLimit .collectionLength count decoder.limits.maxCollectionLength
      Decoder.forCount step count [] decoder) _ :=
    accepts_length.bind fun count =>
      (loop count).check .collectionLength count Limits.maxCollectionLength
  intro decoder within result final
  have drop : (decoder.collectionLen minimum >>= fun counted =>
        Decoder.forCount step counted.1 [] counted.2) = .ok (result, final) ↔
      (decoder.length >>= fun counted =>
        checkLimit .collectionLength counted.1 counted.2.limits.maxCollectionLength >>= fun _ =>
          Decoder.forCount step counted.1 [] counted.2) = .ok (result, final) := by
    simp only [collectionLen, bind_eq_ok_iff]
    constructor
    · rintro ⟨counted, ⟨⟨count, behind⟩, lengthOk, _, fits, tested⟩, itemsOk⟩
      split at tested
      · obtain ⟨_, thrown, _⟩ := bind_eq_ok_iff.mp tested
        cases thrown
      · obtain rfl := Except.ok.inj tested
        exact ⟨(count, behind), lengthOk, _, fits, itemsOk⟩
    · rintro ⟨⟨count, behind⟩, lengthOk, _, fits, itemsOk⟩
      refine ⟨(count, behind), ⟨(count, behind), lengthOk, _, fits, ?_⟩, itemsOk⟩
      obtain ⟨lengthOutput, lengthNodes, _, lengthAhead, lengthCounted, rfl⟩ :=
        (accepts_length decoder within count behind).mp lengthOk
      have behindWithin := within.advance lengthAhead lengthCounted
      obtain ⟨_, _, ⟨items, rfl, _, _, _, rfl, _⟩, ahead, _⟩ :=
        (loop count _ behindWithin result final).mp itemsOk
      have enough : items.length * minimum ≤
          (decoder.advance lengthOutput.length lengthNodes).remaining :=
        (length_flatMap_ge long items).trans (ahead.length_le.trans_eq (length_rest _))
      have room : ¬ (decoder.advance lengthOutput.length lengthNodes).remaining / minimum <
          items.length :=
        Nat.not_lt.mpr ((Nat.le_div_iff_mul_le minimumPos).mpr enough)
      simp only [room]
      rfl
  refine drop.trans ((untested decoder within result final).trans ?_)
  constructor
  · rintro ⟨_, _, ⟨count, _, _, _, _, ⟨_, rfl, rfl⟩,
      ⟨fits, items, rfl, rfl, isGood, allOk, rfl, rfl⟩, rfl, rfl⟩, ahead, counted, rfl⟩
    rw [Nat.zero_add] at counted ⊢
    exact ⟨_, _, ⟨fits, isGood, allOk, rfl, rfl⟩, ahead, counted, rfl⟩
  · rintro ⟨_, _, ⟨fits, isGood, allOk, rfl, rfl⟩, ahead, counted, rfl⟩
    have word := fits.trans_lt (limit_lt_wordLimit limits.maxCollectionLength)
    exact ⟨_, _, ⟨_, _, 0, _, _, ⟨word, rfl, rfl⟩,
      ⟨fits, result, rfl, rfl, isGood, allOk, rfl, rfl⟩, rfl, (Nat.zero_add _).symm⟩,
      ahead, counted, rfl⟩

end Loops

end Decoder

end BoonCircuit.Wire
