import BoonCircuit.Persistence.Hashing

/-!
# Hashed streams are self-delimiting

Every piece of the hashed streams determines the datum it was written from and
where it ends: digests and counters by their fixed width, texts and byte strings
by their length prefix, variants by their tag byte, nested values by induction.
-/

namespace BoonCircuit.Persistence

open Data Lib PrefixCode BigEndian Digest List SelfDelimiting

/-- A code word determines its datum on streams that fit the address space. -/
abbrev Delimited {α : Type} (code : α → List UInt8) : Prop :=
  SelfDelimiting 8 code

theorem delimited_digest : Delimited Digest.bytes :=
  .of_length 32 length_bytes bytes_injective

theorem Digest.bytes_ne_nil (digest : Digest) : digest.bytes ≠ [] := by
  apply ne_nil_of_length_pos
  rw [digest.length_bytes]
  decide

private theorem delimited_fixed {α : Type} {width : Nat} {value : α → Nat}
    (inj : Function.Injective value) (fits : ∀ item, value item < 256 ^ width) :
    Delimited fun item => toFixedBytes width (value item) := by
  apply of_length width fun item => length_toFixedBytes width (value item)
  intro left right same
  exact inj (toFixedBytes_inj (fits left) (fits right) same)

theorem delimited_u32 : Delimited u32Bytes :=
  delimited_fixed (fun _ _ => UInt32.toNat_inj.mp) fun value => value.toNat_lt

theorem delimited_u64 : Delimited u64Bytes :=
  delimited_fixed (fun _ _ => UInt64.toNat_inj.mp) fun value => value.toNat_lt

theorem delimited_u128 : Delimited u128Bytes :=
  delimited_fixed (fun _ _ => BitVec.eq_of_toNat_eq) fun value => value.isLt

theorem delimited_bool : Delimited boolBytes := by
  apply of_length 1 fun _ => rfl
  intro left right same
  cases left <;> cases right <;> first | rfl | cases same

theorem delimited_text : Delimited hashText :=
  selfDelimiting_framed.comp _ Text.utf8Bytes_injective

theorem delimited_bytes : Delimited (framed 8) :=
  selfDelimiting_framed

private theorem delimited_sign : Delimited fun sign : ExactNumberSign => [sign.toByte] := by
  apply of_length 1 fun _ => rfl
  intro left right same
  cases left <;> cases right <;> first | rfl | exact absurd same (by decide)

theorem delimited_number : Delimited hashExactNumber := by
  intro left right leftRest rightRest short same
  simp only [hashExactNumber, append_assoc] at short same
  obtain ⟨signs, same, short⟩ := delimited_sign.peel short same
  obtain ⟨numerators, same, short⟩ := delimited_bytes.peel short same
  obtain ⟨denominators, rests, _⟩ := delimited_bytes.peel short same
  rw [left.numeratorMagnitudeBytes_eq_toBytes, right.numeratorMagnitudeBytes_eq_toBytes]
    at numerators
  have magnitudes := toBytes_injective numerators
  refine ⟨ExactNumber.ext ?_ (toBytes_injective denominators), rests⟩
  rw [← left.signedMagnitude_sign, ← right.signedMagnitude_sign, signs, magnitudes]

theorem delimited_bits : Delimited hashBits := by
  intro left right leftRest rightRest _ same
  simp only [hashBits, append_assoc] at same
  have fits : ∀ bits : Bits, bits.width < 256 ^ 4 := fun bits =>
    bits.width_le.trans_lt (by decide)
  have fields := append_inj same (by simp)
  have widths := toFixedBytes_inj (fits left) (fits right) fields.1
  have contents := append_inj fields.2 (by rw [left.length_bytes, right.length_bytes, widths])
  exact ⟨Bits.ext widths contents.1, contents.2⟩

theorem hashStoredValue_ne_nil (value : Value) : hashStoredValue value ≠ [] := by
  cases value <;> exact cons_ne_nil _ _

theorem hashText_ne_nil (text : String) : hashText text ≠ [] :=
  cons_ne_nil _ _

/-- The bytes of one named field. -/
def hashValueField (field : String × Value) : List UInt8 :=
  hashText field.1 ++ hashStoredValue field.2

/-- The bytes of one map entry. -/
def hashStoredEntry (entry : Value × Value) : List UInt8 :=
  hashStoredValue entry.1 ++ hashStoredValue entry.2

theorem hashStoredValues_eq_flatMap (values : List Value) :
    hashStoredValues values = values.flatMap hashStoredValue :=
  eq_flatMap rfl (fun _ _ => rfl) values

theorem hashValueFields_eq_flatMap (fields : List (String × Value)) :
    hashValueFields fields = fields.flatMap hashValueField :=
  eq_flatMap rfl (fun _ _ => rfl) fields

theorem hashStoredEntries_eq_flatMap (entries : List (Value × Value)) :
    hashStoredEntries entries = entries.flatMap hashStoredEntry :=
  eq_flatMap rfl (fun _ _ => rfl) entries

private theorem hashValueField_ne_nil (field : String × Value) : hashValueField field ≠ [] :=
  append_ne_nil_of_left_ne_nil (hashText_ne_nil field.1) _

private theorem hashStoredEntry_ne_nil (entry : Value × Value) : hashStoredEntry entry ≠ [] :=
  append_ne_nil_of_left_ne_nil (hashStoredValue_ne_nil entry.1) _

mutual

private theorem delimitedAt_value (left : Value) : DelimitedAt 8 hashStoredValue left := by
  intro right leftRest rightRest short same
  cases left <;> cases right <;> try exact absurd (head_eq_of_cons_eq same) (by decide)
  case number.number left right => exact (delimited_number left).variant short same
  case text.text left right => exact (delimited_text left).variant short same
  case bytes.bytes left right => exact (delimited_bytes left).variant short same
  case list.list left right | set.set left right =>
    simp only [hashStoredValue, hashStoredValues_eq_flatMap] at short same
    exact (delimitedAt_counted (delimitedAt_values left) hashStoredValue_ne_nil).variant
      short same
  case object.object left right =>
    simp only [hashStoredValue, hashValueFields_eq_flatMap] at short same
    exact (delimitedAt_counted (delimitedAt_fields left) hashValueField_ne_nil).variant short same
  case tag.tag leftTag left rightTag right =>
    simp only [hashStoredValue, hashValueFields_eq_flatMap, ← counted.eq_1,
      append_assoc] at short same
    rcases (delimited_text leftTag).peel short.of_append (append_cancel_left same)
      with ⟨rfl, same, short⟩
    rcases (delimitedAt_counted (delimitedAt_fields left) hashValueField_ne_nil).peel
      short same with ⟨rfl, rests, _⟩
    exact ⟨rfl, rests⟩
  case map.map left right =>
    simp only [hashStoredValue, hashStoredEntries_eq_flatMap] at short same
    exact (delimitedAt_counted (delimitedAt_entries left) hashStoredEntry_ne_nil).variant
      short same
  case bits.bits left right => exact (delimited_bits left).variant short same

private theorem delimitedAt_values (values : List Value) :
    ∀ value ∈ values, DelimitedAt 8 hashStoredValue value := by
  match values with
  | [] => simp
  | value :: values =>
    exact forall_mem_cons.mpr ⟨delimitedAt_value value, delimitedAt_values values⟩

private theorem delimitedAt_fields (fields : List (String × Value)) :
    ∀ field ∈ fields, DelimitedAt 8 hashValueField field := by
  match fields with
  | [] => simp
  | (name, value) :: fields =>
    exact forall_mem_cons.mpr
      ⟨(delimited_text name).pair (delimitedAt_value value), delimitedAt_fields fields⟩

private theorem delimitedAt_entries (entries : List (Value × Value)) :
    ∀ entry ∈ entries, DelimitedAt 8 hashStoredEntry entry := by
  match entries with
  | [] => simp
  | (key, value) :: entries =>
    exact forall_mem_cons.mpr
      ⟨(delimitedAt_value key).pair (delimitedAt_value value), delimitedAt_entries entries⟩

end

theorem delimited_value : Delimited hashStoredValue :=
  delimitedAt_value

theorem delimited_rowId : Delimited hashDurableRowId := by
  refine ((delimited_digest.pair delimited_u64).pair delimited_u64).comp
    (fun row : DurableRowId => ((row.listMemoryId, row.rowKey), row.rowGeneration)) ?_
  rintro ⟨_, _, _⟩ ⟨_, _, _⟩ ⟨⟩
  rfl

private theorem hashDurableRowId_ne_nil (row : DurableRowId) : hashDurableRowId row ≠ [] := by
  simp [hashDurableRowId, bytes_ne_nil]

theorem delimited_owner : Delimited hashDurableOwner := by
  apply (selfDelimiting_counted delimited_rowId hashDurableRowId_ne_nil).comp
  rintro ⟨_⟩ ⟨_⟩ same
  exact congrArg _ same

theorem delimited_collectionOwner : Delimited hashDurableCollectionOwner := by
  refine ((delimited_digest.pair delimited_value).pair delimited_u64).comp
    (fun owner : DurableCollectionOwner =>
      ((owner.parentMemoryId, owner.key), owner.generation)) ?_
  rintro ⟨_, _, _⟩ ⟨_, _, _⟩ ⟨⟩
  rfl

private theorem hashDurableCollectionOwner_ne_nil (owner : DurableCollectionOwner) :
    hashDurableCollectionOwner owner ≠ [] := by
  simp [hashDurableCollectionOwner, bytes_ne_nil]

theorem delimited_collectionId : Delimited hashDurableCollectionId := by
  have ancestors := selfDelimiting_counted delimited_collectionOwner
    hashDurableCollectionOwner_ne_nil
  refine ((delimited_digest.pair delimited_owner).pair ancestors).comp
    (fun id : DurableCollectionId => ((id.memoryId, id.owner), id.collectionAncestors)) ?_
  rintro ⟨_, _, _⟩ ⟨_, _, _⟩ ⟨⟩
  rfl

theorem hashStoredValueShell_ne_nil (shell : StoredValueShell) :
    hashStoredValueShell shell ≠ [] := by
  cases shell <;> exact cons_ne_nil _ _

/-- The bytes of one named shell field. -/
def hashShellField (field : String × StoredValueShell) : List UInt8 :=
  hashText field.1 ++ hashStoredValueShell field.2

private theorem hashShellField_ne_nil (field : String × StoredValueShell) :
    hashShellField field ≠ [] :=
  append_ne_nil_of_left_ne_nil (hashText_ne_nil field.1) _

theorem hashStoredValueShells_eq_flatMap (values : List StoredValueShell) :
    hashStoredValueShells values = values.flatMap hashStoredValueShell :=
  eq_flatMap rfl (fun _ _ => rfl) values

theorem hashShellFields_eq_flatMap (fields : List (String × StoredValueShell)) :
    hashShellFields fields = fields.flatMap hashShellField :=
  eq_flatMap rfl (fun _ _ => rfl) fields

mutual

private theorem delimitedAt_shell (left : StoredValueShell) :
    DelimitedAt 8 hashStoredValueShell left := by
  intro right leftRest rightRest short same
  cases left <;> cases right <;> try exact absurd (head_eq_of_cons_eq same) (by decide)
  case number.number left right => exact (delimited_number left).variant short same
  case text.text left right => exact (delimited_text left).variant short same
  case bytes.bytes left right => exact (delimited_bytes left).variant short same
  case bits.bits left right => exact (delimited_bits left).variant short same
  case list.list left right =>
    simp only [hashStoredValueShell, hashStoredValueShells_eq_flatMap] at short same
    exact (delimitedAt_counted (delimitedAt_shells left) hashStoredValueShell_ne_nil).variant
      short same
  case object.object left right =>
    simp only [hashStoredValueShell, hashShellFields_eq_flatMap] at short same
    exact (delimitedAt_counted (delimitedAt_shellFields left) hashShellField_ne_nil).variant
      short same
  case tag.tag leftTag left rightTag right =>
    simp only [hashStoredValueShell, hashShellFields_eq_flatMap, ← counted.eq_1, append_assoc]
      at short same
    rcases (delimited_text leftTag).peel short.of_append (append_cancel_left same)
      with ⟨rfl, same, short⟩
    rcases (delimitedAt_counted (delimitedAt_shellFields left) hashShellField_ne_nil).peel
      short same with ⟨rfl, rests, _⟩
    exact ⟨rfl, rests⟩
  case childAuthority.childAuthority left right =>
    exact (delimited_collectionId left).variant short same

private theorem delimitedAt_shells (values : List StoredValueShell) :
    ∀ value ∈ values, DelimitedAt 8 hashStoredValueShell value := by
  match values with
  | [] => simp
  | value :: values =>
    exact forall_mem_cons.mpr ⟨delimitedAt_shell value, delimitedAt_shells values⟩

private theorem delimitedAt_shellFields (fields : List (String × StoredValueShell)) :
    ∀ field ∈ fields, DelimitedAt 8 hashShellField field := by
  match fields with
  | [] => simp
  | (name, value) :: fields =>
    exact forall_mem_cons.mpr
      ⟨(delimited_text name).pair (delimitedAt_shell value), delimitedAt_shellFields fields⟩

end

theorem delimited_shell : Delimited hashStoredValueShell :=
  delimitedAt_shell

end BoonCircuit.Persistence
