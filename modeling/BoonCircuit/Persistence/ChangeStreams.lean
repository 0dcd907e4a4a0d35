import BoonCircuit.Persistence.StreamLaws

/-!
# Streams of changes, outbox work and artifacts

One change, one outbox change, one binding or one supplied artifact is
self-delimiting.  Lists of them are as well when their count is hashed in front
of them, which `hash_changes` and parts of `activation_checksum` do not do.
-/

namespace BoonCircuit.Persistence

open Data Lib PrefixCode List

private theorem delimited_entries {κ ν : Type} [Ord κ] [Std.TransOrd κ]
    {code : κ × ν → List UInt8} (delimited : Delimited code) (nonempty : ∀ entry, code entry ≠ []) :
    Delimited fun map : BTreeMap κ ν => counted 8 code map.toList :=
  (selfDelimiting_counted delimited nonempty).comp _ fun _ _ => Std.ExtTreeMap.toList_inj.mp

private theorem delimited_items {κ : Type} [Ord κ] [Std.TransOrd κ]
    {code : κ → List UInt8} (delimited : Delimited code) (nonempty : ∀ item, code item ≠ []) :
    Delimited fun set : BTreeSet κ => counted 8 code set.toList :=
  (selfDelimiting_counted delimited nonempty).comp _ fun _ _ => Std.ExtTreeSet.toList_inj.mp

private theorem u64Bytes_ne_nil (value : UInt64) : u64Bytes value ≠ [] := by
  apply ne_nil_of_length_pos
  simp [u64Bytes]

private theorem delimited_rowFields :
    Delimited fun fields : BTreeMap MemoryLeafId StoredValueShell =>
      counted 8 hashRowField fields.toList :=
  delimited_entries (delimited_digest.pair delimited_shell) fun field =>
    append_ne_nil_of_left_ne_nil field.1.bytes_ne_nil _

private theorem delimited_touchedFields :
    Delimited fun touched : BTreeSet MemoryLeafId => counted 8 Digest.bytes touched.toList :=
  delimited_items delimited_digest Digest.bytes_ne_nil

theorem delimited_row : Delimited hashStoredRow := by
  have identity := (delimited_u64.pair delimited_u64).pair delimited_u128
  have place := (identity.pair delimited_owner).pair (selfDelimiting_optional delimited_owner)
  refine ((place.pair delimited_rowFields).pair delimited_touchedFields).comp
    (fun row : StoredRow =>
    ((((((row.key, row.generation), row.sourceOrderToken), row.owner), row.materializationOrigin),
      row.fields), row.touchedFields)) ?_
  rintro ⟨_, _, _, _, _, _, _⟩ ⟨_, _, _, _, _, _, _⟩ ⟨⟩
  rfl

private theorem hashStoredRow_ne_nil (row : StoredRow) : hashStoredRow row ≠ [] := by
  simp [hashStoredRow, u64Bytes_ne_nil]

theorem delimited_rows : Delimited (counted 8 hashStoredRow) :=
  selfDelimiting_counted delimited_row hashStoredRow_ne_nil

theorem delimited_keyGenerations :
    Delimited fun generations : BTreeMap Value UInt64 =>
      counted 8 hashKeyGeneration generations.toList :=
  delimited_entries (delimited_value.pair delimited_u64) fun entry =>
    append_ne_nil_of_left_ne_nil (hashStoredValue_ne_nil entry.1) _

theorem delimited_mapEntries :
    Delimited fun entries : BTreeMap Value StoredValueShell =>
      counted 8 hashMapEntry entries.toList :=
  delimited_entries (delimited_value.pair delimited_shell) fun entry =>
    append_ne_nil_of_left_ne_nil (hashStoredValue_ne_nil entry.1) _

theorem delimited_setItems :
    Delimited fun items : BTreeSet Value => counted 8 hashStoredValue items.toList :=
  delimited_items delimited_value hashStoredValue_ne_nil

/-- Tags agree on equal streams, so only changes of one kind have to be compared. -/
theorem delimited_change : Delimited hashChange := by
  have place := (delimited_digest.pair delimited_u64).pair delimited_u64
  have element := (delimited_collectionId.pair delimited_u64).pair delimited_value
  intro left right leftRest rightRest short same
  cases left <;> cases right <;> try exact absurd (head_eq_of_cons_eq same) (by decide)
  case setScalar.setScalar =>
    rename_i left _ right
    rcases right with ⟨_, _⟩
    obtain ⟨⟨⟩, rests⟩ := ((delimited_digest.pair delimited_bool).pair delimited_value).tagged
      ((_, _), _) ((_, _), _) short same
    exact ⟨rfl, rests⟩
  case deleteScalar.deleteScalar | deleteList.deleteList =>
    exact (delimited_digest _).variant short same
  case setList.setList =>
    rename_i left _ right
    rcases right with ⟨_, _, _, _, _⟩
    have counters := ((delimited_digest.pair delimited_bool).pair delimited_u64).pair delimited_u64
    obtain ⟨⟨⟩, rests⟩ := ((counters.pair delimited_u128).pair delimited_rows).tagged
      (((((_, _), _), _), _), _) (((((_, _), _), _), _), _) short same
    exact ⟨rfl, rests⟩
  case setRowField.setRowField =>
    have owners := ((place.pair delimited_u64).pair delimited_owner).pair
      (selfDelimiting_optional delimited_owner)
    obtain ⟨⟨⟩, rests⟩ := ((owners.pair delimited_digest).pair delimited_shell).tagged
      (((((((_, _), _), _), _), _), _), _) (((((((_, _), _), _), _), _), _), _) short same
    exact ⟨rfl, rests⟩
  case insertRow.insertRow =>
    obtain ⟨⟨⟩, rests⟩ := (((place.pair delimited_row).pair delimited_u64).pair
      delimited_u128).tagged (((((_, _), _), _), _), _) (((((_, _), _), _), _), _) short same
    exact ⟨rfl, rests⟩
  case removeRow.removeRow =>
    obtain ⟨⟨⟩, rests⟩ := (((place.pair delimited_u64).pair delimited_u64).pair
      delimited_u128).tagged (((((_, _), _), _), _), _) (((((_, _), _), _), _), _) short same
    exact ⟨rfl, rests⟩
  case setMap.setMap =>
    rename_i left _ right
    rcases right with ⟨_, _, _, _, _⟩
    have counters :=
      ((delimited_collectionId.pair delimited_bool).pair delimited_u64).pair delimited_u64
    obtain ⟨⟨⟩, rests⟩ := ((counters.pair delimited_keyGenerations).pair
      delimited_mapEntries).tagged (((((_, _), _), _), _), _) (((((_, _), _), _), _), _) short same
    exact ⟨rfl, rests⟩
  case mapUpsert.mapUpsert =>
    obtain ⟨⟨⟩, rests⟩ := (((element.pair delimited_u64).pair delimited_u64).pair
      delimited_shell).tagged (((((_, _), _), _), _), _) (((((_, _), _), _), _), _) short same
    exact ⟨rfl, rests⟩
  case mapRemove.mapRemove =>
    obtain ⟨⟨⟩, rests⟩ :=
      (element.pair delimited_u64).tagged (((_, _), _), _) (((_, _), _), _) short same
    exact ⟨rfl, rests⟩
  case deleteMap.deleteMap | deleteSet.deleteSet =>
    exact (delimited_collectionId _).variant short same
  case setSet.setSet =>
    rename_i left _ right
    rcases right with ⟨_, _, _⟩
    obtain ⟨⟨⟩, rests⟩ := (((delimited_collectionId.pair delimited_bool).pair delimited_u64).pair
      delimited_setItems).tagged (((_, _), _), _) (((_, _), _), _) short same
    exact ⟨rfl, rests⟩
  case setAdd.setAdd | setRemove.setRemove =>
    obtain ⟨⟨⟩, rests⟩ := element.tagged ((_, _), _) ((_, _), _) short same
    exact ⟨rfl, rests⟩

theorem delimited_outboxState : Delimited hashOutboxState := by
  intro left right leftRest rightRest short same
  cases left <;> cases right <;> try exact absurd (head_eq_of_cons_eq same) (by decide)
  case pending.pending => exact ⟨rfl, append_cancel_left same⟩
  case dispatching.dispatching | reconciliationRequired.reconciliationRequired =>
    exact (delimited_u32 _).variant short same
  case completed.completed =>
    obtain ⟨⟨⟩, rests⟩ := (delimited_u32.pair delimited_value).tagged (_, _) (_, _) short same
    exact ⟨rfl, rests⟩

theorem delimited_outboxItem : Delimited hashOutboxItem := by
  have identity := (delimited_digest.pair delimited_digest).pair delimited_digest
  have place := (identity.pair delimited_owner).pair (selfDelimiting_optional delimited_rowId)
  have state := ((place.pair delimited_value).pair delimited_value).pair delimited_outboxState
  refine (((state.pair delimited_u64).pair delimited_u64).pair delimited_u64).comp (fun item :
      DurableOutboxItem =>
        ((((((((((item.itemId, item.invocationId), item.effectId), item.owner), item.targetRow),
      item.idempotencyKey), item.intent), item.state), item.revision), item.createdTurnSequence),
      item.updatedTurnSequence)) ?_
  rintro ⟨_, _, _, _, _, _, _, _, _, _, _⟩ ⟨_, _, _, _, _, _, _, _, _, _, _⟩ ⟨⟩
  rfl

theorem hashOutboxChange_ne_nil (change : DurableOutboxChange) : hashOutboxChange change ≠ [] := by
  cases change <;> exact cons_ne_nil _ _

private theorem delimited_header :
    Delimited fun header : OutboxItemId × UInt64 × UInt64 × UInt32 × UInt64 =>
      hashOutboxTransitionHeader header.1 header.2.1 header.2.2.1 header.2.2.2.1
        header.2.2.2.2 := by
  have revisions := (delimited_digest.pair delimited_u64).pair delimited_u64
  refine ((revisions.pair delimited_u32).pair delimited_u64).comp (fun header :
      OutboxItemId × UInt64 × UInt64 × UInt32 × UInt64 =>
    ((((header.1, header.2.1), header.2.2.1), header.2.2.2.1), header.2.2.2.2)) ?_
  rintro ⟨_, _, _, _, _⟩ ⟨_, _, _, _, _⟩ ⟨⟩
  rfl

theorem delimited_outboxChange : Delimited hashOutboxChange := by
  intro left right leftRest rightRest short same
  cases left <;> cases right <;> try exact absurd (head_eq_of_cons_eq same) (by decide)
  case enqueue.enqueue => exact (delimited_outboxItem _).variant short same
  case beginDispatch.beginDispatch | requireReconciliation.requireReconciliation =>
    obtain ⟨⟨⟩, rests⟩ :=
      delimited_header.tagged (_, _, _, _, _) (_, _, _, _, _) short same
    exact ⟨rfl, rests⟩
  case complete.complete =>
    obtain ⟨⟨⟩, rests⟩ := (delimited_header.pair delimited_value).tagged
      ((_, _, _, _, _), _) ((_, _, _, _, _), _) short same
    exact ⟨rfl, rests⟩

theorem delimited_outboxChanges : Delimited hashOutboxChanges :=
  selfDelimiting_counted delimited_outboxChange hashOutboxChange_ne_nil

private theorem delimited_retention : Delimited hashRetention := by
  apply SelfDelimiting.of_length 1
  · rintro ⟨⟩ <;> rfl
  · rintro ⟨⟩ ⟨⟩ same <;> first | rfl | exact absurd same (by decide)

theorem delimited_binding : Delimited hashBinding := by
  refine ((delimited_digest.pair delimited_digest).pair delimited_retention).comp
    (fun entry : ContentArtifactOwnerId × ContentArtifactBinding =>
      ((entry.1, entry.2.artifactId), entry.2.retention)) ?_
  rintro ⟨_, _, _⟩ ⟨_, _, _⟩ ⟨⟩
  rfl

theorem delimited_manifest : Delimited hashContentArtifactManifest := by
  have bindings := delimited_entries delimited_binding fun entry => by
    simp [hashBinding, Digest.bytes_ne_nil]
  exact bindings.comp _ fun ⟨_⟩ ⟨_⟩ same => congrArg _ same

theorem delimited_artifactChange : Delimited hashContentArtifactChange := by
  intro left right leftRest rightRest short same
  cases left <;> cases right <;> try exact absurd (head_eq_of_cons_eq same) (by decide)
  all_goals
    obtain ⟨⟨⟩, rests⟩ := (delimited_digest.pair delimited_digest).tagged (_, _) (_, _) short same
    exact ⟨rfl, rests⟩

theorem delimited_artifactChanges : Delimited hashContentArtifactChanges :=
  selfDelimiting_counted delimited_artifactChange fun change => by
    cases change <;> exact cons_ne_nil _ _

theorem delimited_application : Delimited hashApplication := by
  refine ((delimited_text.pair delimited_text).pair delimited_text).comp
    (fun application : ApplicationIdentity =>
      ((application.packageId, application.stateNamespace), application.deploymentDomain)) ?_
  rintro ⟨_, _, _⟩ ⟨_, _, _⟩ ⟨⟩
  rfl

/-- The stream behind the identity of an outbox item. -/
def outboxItemMessage (invocationId : EffectInvocationId) (effectId : EffectId)
    (idempotencyKey : Value) (owner : DurableOwner) (targetRow : Option DurableRowId) :
    List UInt8 :=
  Text.utf8Bytes "boon.outbox.item.v4" ++ invocationId.bytes ++ effectId.bytes ++
    hashStoredValue idempotencyKey ++ hashDurableOwner owner ++
    optional hashDurableRowId targetRow

/-- The stream behind the key of an intent. -/
def intentKeyMessage (intent : Value) : List UInt8 :=
  Text.utf8Bytes "boon.effect-intent-key.v1" ++ hashStoredValue intent

/-- The stream behind the identity of an artifact. -/
def contentMessage (mediaType : String) (bytes : List UInt8) : List UInt8 :=
  Text.utf8Bytes "boon.content-artifact.v1" ++ hashText mediaType ++ framed 8 bytes

theorem outboxItemMessage_inj {invocation invocation' : EffectInvocationId}
    {effect effect' : EffectId} {key key' : Value} {owner owner' : DurableOwner}
    {target target' : Option DurableRowId}
    (short : Short 8 (outboxItemMessage invocation effect key owner target))
    (same : outboxItemMessage invocation effect key owner target =
      outboxItemMessage invocation' effect' key' owner' target') :
    invocation = invocation' ∧ effect = effect' ∧ key = key' ∧ owner = owner' ∧
      target = target' := by
  simp only [outboxItemMessage, append_assoc] at short same
  replace short := short.of_append
  replace same := append_cancel_left same
  obtain ⟨rfl, same, short⟩ := delimited_digest.peel short same
  obtain ⟨rfl, same, short⟩ := delimited_digest.peel short same
  obtain ⟨rfl, same, short⟩ := delimited_value.peel short same
  obtain ⟨rfl, same, short⟩ := delimited_owner.peel short same
  exact ⟨rfl, rfl, rfl, rfl, (selfDelimiting_optional delimited_rowId).injective short same⟩

theorem contentMessage_inj {mediaType mediaType' : String} {bytes bytes' : List UInt8}
    (short : Short 8 (contentMessage mediaType bytes))
    (same : contentMessage mediaType bytes = contentMessage mediaType' bytes') :
    mediaType = mediaType' ∧ bytes = bytes' := by
  simp only [contentMessage, append_assoc] at short same
  obtain ⟨rfl, same, short⟩ := delimited_text.peel short.of_append (append_cancel_left same)
  exact ⟨rfl, delimited_bytes.injective short same⟩

/-- The identities are digests of streams that determine what they identify, on streams that fit
the address space; no value is encoded as the beginning of another. -/
theorem identity_streams_determine (sha256 : List UInt8 → Digest) :
    (∀ invocation effect key owner target,
      OutboxItemId.fromInvocation sha256 invocation effect key owner target =
          sha256 (outboxItemMessage invocation effect key owner target) ∧
        (Short 8 (outboxItemMessage invocation effect key owner target) →
          ∀ invocation' effect' key' owner' target',
            outboxItemMessage invocation effect key owner target =
              outboxItemMessage invocation' effect' key' owner' target' →
            invocation = invocation' ∧ effect = effect' ∧ key = key' ∧ owner = owner' ∧
              target = target')) ∧
    (∀ intent, canonicalIntentKey sha256 intent = .bytes (sha256 (intentKeyMessage intent)).bytes ∧
      (Short 8 (intentKeyMessage intent) →
        ∀ other, intentKeyMessage intent = intentKeyMessage other → intent = other)) ∧
    (∀ mediaType bytes,
      ContentArtifactId.forContent sha256 mediaType bytes =
          sha256 (contentMessage mediaType bytes) ∧
        (Short 8 (contentMessage mediaType bytes) → ∀ mediaType' bytes',
          contentMessage mediaType bytes = contentMessage mediaType' bytes' →
            mediaType = mediaType' ∧ bytes = bytes')) ∧
    (∀ value other, Short 8 (hashStoredValue value) →
      hashStoredValue other <+: hashStoredValue value → other = value) := by
  refine ⟨?_, ?_, ?_, ?_⟩
  · intro invocation effect key owner target
    exact ⟨rfl, fun short _ _ _ _ _ same => outboxItemMessage_inj short same⟩
  · intro intent
    refine ⟨rfl, fun short other same => ?_⟩
    exact delimited_value.injective short.of_append (append_cancel_left same)
  · intro mediaType bytes
    exact ⟨rfl, fun short _ _ same => contentMessage_inj short same⟩
  · rintro value other short ⟨rest, whole⟩
    have same : hashStoredValue other ++ rest = hashStoredValue value ++ [] := by
      rw [whole, append_nil]
    exact (delimited_value.peel (whole ▸ short) same).1

theorem identity_streams_determine_content :
    Short 8 (contentMessage "text" [1]) ∧ contentMessage "text" [1] = contentMessage "text" [1] ∧
      "text" = "text" ∧ ([1] : List UInt8) = [1] := by
  have short : Short 8 (contentMessage "text" [1]) := by
    unfold Short
    decide
  have determined := (identity_streams_determine fun _ => Digest.ofByte 0).2.2.1 "text" [1]
  exact ⟨short, rfl, determined.2 short "text" [1] rfl⟩

end BoonCircuit.Persistence
