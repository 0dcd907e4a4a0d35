import BoonCircuit.Lib.PrefixCode
import BoonCircuit.Persistence.Types

/-!
# The byte streams behind durable digests

Each function returns the bytes that its source namesake feeds to the SHA-256
hasher, in order.  Lengths are written as eight big-endian bytes.  The hash
itself is a parameter of the functions that return a digest.
-/

namespace BoonCircuit.Persistence

open Data Lib PrefixCode BigEndian Text

def u32Bytes (value : UInt32) : List UInt8 :=
  toFixedBytes 4 value.toNat

def u64Bytes (value : UInt64) : List UInt8 :=
  toFixedBytes 8 value.toNat

def u128Bytes (value : BitVec 128) : List UInt8 :=
  toFixedBytes 16 value.toNat

def boolBytes (value : Bool) : List UInt8 :=
  [if value then 1 else 0]

def hashText (text : String) : List UInt8 :=
  framed 8 (utf8Bytes text)

def hashExactNumber (number : ExactNumber) : List UInt8 :=
  [number.sign.toByte] ++ framed 8 number.numeratorMagnitudeBytes ++
    framed 8 number.denominatorBytes

def hashBits (bits : Bits) : List UInt8 :=
  toFixedBytes 4 bits.width ++ bits.bytes

mutual

def hashStoredValue : Value → List UInt8
  | .number number => [20] ++ hashExactNumber number
  | .text text => [21] ++ hashText text
  | .bytes bytes => [22] ++ framed 8 bytes
  | .list values => [23] ++ (countBytes 8 values.length ++ hashStoredValues values)
  | .object fields => [24] ++ (countBytes 8 fields.length ++ hashValueFields fields)
  | .tag tag fields =>
    [25] ++ (hashText tag ++ (countBytes 8 fields.length ++ hashValueFields fields))
  | .map entries => [27] ++ (countBytes 8 entries.length ++ hashStoredEntries entries)
  | .set items => [28] ++ (countBytes 8 items.length ++ hashStoredValues items)
  | .bits bits => [30] ++ hashBits bits

def hashStoredValues : List Value → List UInt8
  | [] => []
  | value :: values => hashStoredValue value ++ hashStoredValues values

def hashValueFields : List (String × Value) → List UInt8
  | [] => []
  | (name, value) :: fields => hashText name ++ hashStoredValue value ++ hashValueFields fields

def hashStoredEntries : List (Value × Value) → List UInt8
  | [] => []
  | (key, value) :: entries =>
    hashStoredValue key ++ hashStoredValue value ++ hashStoredEntries entries

end

def hashDurableRowId (row : DurableRowId) : List UInt8 :=
  row.listMemoryId.bytes ++ u64Bytes row.rowKey ++ u64Bytes row.rowGeneration

def hashDurableOwner (owner : DurableOwner) : List UInt8 :=
  counted 8 hashDurableRowId owner.ancestors

def hashDurableCollectionOwner (owner : DurableCollectionOwner) : List UInt8 :=
  owner.parentMemoryId.bytes ++ hashStoredValue owner.key ++ u64Bytes owner.generation

def hashDurableCollectionId (collectionId : DurableCollectionId) : List UInt8 :=
  collectionId.memoryId.bytes ++ hashDurableOwner collectionId.owner ++
    counted 8 hashDurableCollectionOwner collectionId.collectionAncestors

mutual

def hashStoredValueShell : StoredValueShell → List UInt8
  | .number number => [0] ++ hashExactNumber number
  | .text text => [1] ++ hashText text
  | .bytes bytes => [2] ++ framed 8 bytes
  | .list values => [3] ++ (countBytes 8 values.length ++ hashStoredValueShells values)
  | .object fields => [4] ++ (countBytes 8 fields.length ++ hashShellFields fields)
  | .tag tag fields =>
    [5] ++ (hashText tag ++ (countBytes 8 fields.length ++ hashShellFields fields))
  | .childAuthority collectionId => [6] ++ hashDurableCollectionId collectionId
  | .bits bits => [7] ++ hashBits bits

def hashStoredValueShells : List StoredValueShell → List UInt8
  | [] => []
  | value :: values => hashStoredValueShell value ++ hashStoredValueShells values

def hashShellFields : List (String × StoredValueShell) → List UInt8
  | [] => []
  | (name, value) :: fields => hashText name ++ hashStoredValueShell value ++ hashShellFields fields

end

def hashRowField (field : MemoryLeafId × StoredValueShell) : List UInt8 :=
  field.1.bytes ++ hashStoredValueShell field.2

def hashStoredRow (row : StoredRow) : List UInt8 :=
  u64Bytes row.key ++ u64Bytes row.generation ++ u128Bytes row.sourceOrderToken ++
    hashDurableOwner row.owner ++ optional hashDurableOwner row.materializationOrigin ++
    counted 8 hashRowField row.fields.toList ++
    counted 8 Digest.bytes row.touchedFields.toList

def hashKeyGeneration (entry : Value × UInt64) : List UInt8 :=
  hashStoredValue entry.1 ++ u64Bytes entry.2

def hashMapEntry (entry : Value × StoredValueShell) : List UInt8 :=
  hashStoredValue entry.1 ++ hashStoredValueShell entry.2

/-- The bytes of one change.  `hash_changes` runs them together without a count. -/
def hashChange : DurableChange → List UInt8
  | .setScalar memoryId value =>
    [0] ++ memoryId.bytes ++ boolBytes value.touched ++ hashStoredValue value.value
  | .deleteScalar memoryId => [1] ++ memoryId.bytes
  | .setList memoryId value =>
    [2] ++ memoryId.bytes ++ boolBytes value.touched ++ u64Bytes value.revision ++
      u64Bytes value.nextKey ++ u128Bytes value.nextOrderToken ++
      counted 8 hashStoredRow value.rows
  | .setRowField memoryId listRevision rowKey rowGeneration owner materializationOrigin fieldId
      value =>
      [3] ++ memoryId.bytes ++ u64Bytes listRevision ++ u64Bytes rowKey ++
        u64Bytes rowGeneration ++ hashDurableOwner owner ++
        optional hashDurableOwner materializationOrigin ++ fieldId.bytes ++
        hashStoredValueShell value
  | .insertRow memoryId listRevision index row nextKey nextOrderToken =>
    [4] ++ memoryId.bytes ++ u64Bytes listRevision ++ u64Bytes index ++ hashStoredRow row ++
      u64Bytes nextKey ++ u128Bytes nextOrderToken
  | .removeRow memoryId listRevision rowKey rowGeneration nextKey nextOrderToken =>
    [5] ++ memoryId.bytes ++ u64Bytes listRevision ++ u64Bytes rowKey ++
      u64Bytes rowGeneration ++ u64Bytes nextKey ++ u128Bytes nextOrderToken
  | .deleteList memoryId => [6] ++ memoryId.bytes
  | .setMap collectionId value =>
    [7] ++ hashDurableCollectionId collectionId ++ boolBytes value.touched ++
      u64Bytes value.revision ++ u64Bytes value.nextKeyGeneration ++
      counted 8 hashKeyGeneration value.keyGenerations.toList ++
      counted 8 hashMapEntry value.entries.toList
  | .mapUpsert collectionId revision key keyGeneration nextKeyGeneration value =>
    [8] ++ hashDurableCollectionId collectionId ++ u64Bytes revision ++ hashStoredValue key ++
      u64Bytes keyGeneration ++ u64Bytes nextKeyGeneration ++ hashStoredValueShell value
  | .mapRemove collectionId revision key nextKeyGeneration =>
    [9] ++ hashDurableCollectionId collectionId ++ u64Bytes revision ++ hashStoredValue key ++
      u64Bytes nextKeyGeneration
  | .deleteMap collectionId => [10] ++ hashDurableCollectionId collectionId
  | .setSet collectionId value =>
    [11] ++ hashDurableCollectionId collectionId ++ boolBytes value.touched ++
      u64Bytes value.revision ++ counted 8 hashStoredValue value.items.toList
  | .setAdd collectionId revision item =>
    [12] ++ hashDurableCollectionId collectionId ++ u64Bytes revision ++ hashStoredValue item
  | .setRemove collectionId revision item =>
    [13] ++ hashDurableCollectionId collectionId ++ u64Bytes revision ++ hashStoredValue item
  | .deleteSet collectionId => [14] ++ hashDurableCollectionId collectionId

def hashChanges (changes : List DurableChange) : List UInt8 :=
  changes.flatMap hashChange

def hashOutboxState : DurableOutboxState → List UInt8
  | .pending => [0]
  | .dispatching attempt => [1] ++ u32Bytes attempt
  | .reconciliationRequired attempt => [2] ++ u32Bytes attempt
  | .completed attempt outcome => [3] ++ u32Bytes attempt ++ hashStoredValue outcome

def hashOutboxItem (item : DurableOutboxItem) : List UInt8 :=
  item.itemId.bytes ++ item.invocationId.bytes ++ item.effectId.bytes ++
    hashDurableOwner item.owner ++ optional hashDurableRowId item.targetRow ++
    hashStoredValue item.idempotencyKey ++ hashStoredValue item.intent ++
    hashOutboxState item.state ++ u64Bytes item.revision ++
    u64Bytes item.createdTurnSequence ++ u64Bytes item.updatedTurnSequence

def hashOutboxTransitionHeader (itemId : OutboxItemId) (expectedRevision nextRevision : UInt64)
    (attempt : UInt32) (turnSequence : UInt64) : List UInt8 :=
  itemId.bytes ++ u64Bytes expectedRevision ++ u64Bytes nextRevision ++ u32Bytes attempt ++
    u64Bytes turnSequence

def hashOutboxChange : DurableOutboxChange → List UInt8
  | .enqueue item => [0] ++ hashOutboxItem item
  | .beginDispatch itemId expectedRevision nextRevision attempt turnSequence =>
    [1] ++ hashOutboxTransitionHeader itemId expectedRevision nextRevision attempt turnSequence
  | .requireReconciliation itemId expectedRevision nextRevision attempt turnSequence =>
    [2] ++ hashOutboxTransitionHeader itemId expectedRevision nextRevision attempt turnSequence
  | .complete itemId expectedRevision nextRevision attempt outcome turnSequence =>
    [3] ++ hashOutboxTransitionHeader itemId expectedRevision nextRevision attempt
      turnSequence ++ hashStoredValue outcome

def hashOutboxChanges (changes : List DurableOutboxChange) : List UInt8 :=
  counted 8 hashOutboxChange changes

def hashRetention : ContentArtifactRetention → List UInt8
  | .replaceable => [0]
  | .immutable => [1]

def hashBinding (entry : ContentArtifactOwnerId × ContentArtifactBinding) : List UInt8 :=
  entry.1.bytes ++ entry.2.artifactId.bytes ++ hashRetention entry.2.retention

def hashContentArtifactManifest (manifest : ContentArtifactManifest) : List UInt8 :=
  counted 8 hashBinding manifest.bindings.toList

def hashContentArtifactChange : DurableContentArtifactChange → List UInt8
  | .setReplaceable ownerId artifactId => [0] ++ ownerId.bytes ++ artifactId.bytes
  | .insertImmutable ownerId artifactId => [1] ++ ownerId.bytes ++ artifactId.bytes
  | .release ownerId expectedArtifactId => [2] ++ ownerId.bytes ++ expectedArtifactId.bytes

def hashContentArtifactChanges (changes : List DurableContentArtifactChange) : List UInt8 :=
  counted 8 hashContentArtifactChange changes

/-- The bytes of one supplied artifact.  `activation_checksum` runs them together. -/
def hashSuppliedArtifact (entry : ContentArtifactId × ContentArtifact) : List UInt8 :=
  entry.1.bytes ++ hashText entry.2.mediaType ++ framed 8 entry.2.bytes

def hashApplication (application : ApplicationIdentity) : List UInt8 :=
  hashText application.packageId ++ hashText application.stateNamespace ++
    hashText application.deploymentDomain

def checkpointMessage (batch : CheckpointBatch) : List UInt8 :=
  hashApplication batch.application ++ batch.schemaHash.bytes ++ u64Bytes batch.baseEpoch ++
    u64Bytes batch.nextEpoch ++ u64Bytes batch.firstTurnSequence ++
    u64Bytes batch.lastTurnSequence ++ hashChanges batch.changes ++
    hashOutboxChanges batch.outboxChanges ++
    hashContentArtifactChanges batch.contentArtifactChanges

def resetMessage (batch : ResetApplicationBatch) : List UInt8 :=
  utf8Bytes "boon.persistence.reset.v2" ++ hashApplication batch.application ++
    u64Bytes batch.expectedBaseEpoch ++ u64Bytes batch.nextEpoch ++
    batch.sourceSchemaHash.bytes ++ hashApplication batch.defaultImage.application ++
    u64Bytes batch.defaultImage.schemaVersion ++ batch.defaultImage.schemaHash.bytes ++
    u64Bytes batch.defaultImage.epoch ++ u64Bytes batch.defaultImage.throughTurnSequence ++
    hashContentArtifactManifest batch.defaultImage.contentArtifactManifest ++
    u64Bytes batch.throughTurnSequence ++ hashChanges batch.authorityChanges ++
    hashOutboxChanges batch.outboxChanges

def activationMessage (batch : ActivationBatch) : List UInt8 :=
  utf8Bytes "boon.persistence.activation.v4" ++ hashApplication batch.application ++
    u64Bytes batch.expectedBaseEpoch ++ u64Bytes batch.nextEpoch ++
    batch.sourceSchemaHash.bytes ++ u64Bytes batch.targetSchemaVersion ++
    batch.targetSchemaHash.bytes ++ u64Bytes batch.throughTurnSequence ++
    hashChanges batch.authorityChanges ++ hashOutboxChanges batch.outboxChanges ++
    batch.completedMigrationEdges.flatMap Digest.bytes ++
    batch.deletedMemory.flatMap Digest.bytes ++
    hashContentArtifactManifest batch.targetContentArtifactManifest ++
    batch.contentArtifacts.toList.flatMap hashSuppliedArtifact

section Digests

variable (sha256 : List UInt8 → Digest)

def checkpointChecksum (batch : CheckpointBatch) : Digest :=
  sha256 (checkpointMessage batch)

def resetChecksum (batch : ResetApplicationBatch) : Digest :=
  sha256 (resetMessage batch)

def activationChecksum (batch : ActivationBatch) : Digest :=
  sha256 (activationMessage batch)

def CheckpointBatch.seal (batch : CheckpointBatch) : CheckpointBatch :=
  { batch with checksum := checkpointChecksum sha256 batch }

def ResetApplicationBatch.seal (batch : ResetApplicationBatch) : ResetApplicationBatch :=
  { batch with checksum := resetChecksum sha256 batch }

def ActivationBatch.seal (batch : ActivationBatch) : ActivationBatch :=
  { batch with checksum := activationChecksum sha256 batch }

/-- The identity of an outbox item is a digest of what it does and where. -/
def OutboxItemId.fromInvocation (invocationId : EffectInvocationId) (effectId : EffectId)
    (idempotencyKey : Value) (owner : DurableOwner) (targetRow : Option DurableRowId) :
    OutboxItemId :=
  sha256 (utf8Bytes "boon.outbox.item.v4" ++ invocationId.bytes ++ effectId.bytes ++
    hashStoredValue idempotencyKey ++ hashDurableOwner owner ++
    optional hashDurableRowId targetRow)

/-- The idempotency key of an intent that names none is a digest of the intent. -/
def canonicalIntentKey (intent : Value) : Value :=
  .bytes (sha256 (utf8Bytes "boon.effect-intent-key.v1" ++ hashStoredValue intent)).bytes

/-- The identity of an artifact is a digest of its media type and content. -/
def ContentArtifactId.forContent (mediaType : String) (bytes : List UInt8) : ContentArtifactId :=
  sha256 (utf8Bytes "boon.content-artifact.v1" ++ hashText mediaType ++ framed 8 bytes)

end Digests

end BoonCircuit.Persistence
