import BoonCircuit.Data.Value
import BoonCircuit.Lib.BTree

/-!
# Durable state and the batches that change it

The records of `boon_persistence`.  Durable identities are 32-byte digests, ordered by
their bytes; a shell is a value whose nested maps and sets are references to the
durable collections that hold them.  `u64` counters are `UInt64`, `u128` order tokens
are 128-bit vectors, ordered maps and sets are `BTreeMap` and `BTreeSet`.
-/

namespace BoonCircuit.Persistence

open Data Lib Std Order

/-- A 32-byte digest. -/
structure Digest where
  bytes : List UInt8
  length_bytes : bytes.length = 32
  deriving DecidableEq

namespace Digest

theorem bytes_injective : Function.Injective bytes := by
  rintro ⟨_, _⟩ ⟨_, _⟩ same
  cases same
  rfl

/-- One lowercase hexadecimal digit. -/
def hexDigit (value : UInt8) : Char :=
  if value < 10 then Char.ofNat (48 + value.toNat) else Char.ofNat (87 + value.toNat)

/-- The hexadecimal text of a digest. -/
def hex (digest : Digest) : String :=
  String.ofList (digest.bytes.flatMap fun byte => [hexDigit (byte / 16), hexDigit (byte % 16)])

instance : ToString Digest :=
  ⟨hex⟩

instance : Ord Digest :=
  ⟨compareOn bytes⟩

instance : TransOrd Digest :=
  transOrd_of_compare_eq bytes fun _ _ => rfl

instance : LawfulEqOrd Digest :=
  lawfulEqOrd_of_compare_eq bytes bytes_injective fun _ _ => rfl

/-- The digest with one leading byte and zeros after it. -/
def ofByte (byte : UInt8) : Digest :=
  ⟨byte :: List.replicate 31 0, by simp⟩

end Digest

/-- Identity of one durable memory. -/
abbrev MemoryId : Type := Digest

/-- Identity of one field of a row. -/
abbrev MemoryLeafId : Type := Digest

abbrev MigrationEdgeId : Type := Digest

abbrev EffectId : Type := Digest

abbrev EffectInvocationId : Type := Digest

abbrev OutboxItemId : Type := Digest

abbrev ContentArtifactId : Type := Digest

abbrev ContentArtifactOwnerId : Type := Digest

@[ext]
structure ApplicationIdentity where
  packageId : String
  stateNamespace : String
  deploymentDomain : String
  deriving DecidableEq

namespace ApplicationIdentity

/-- Byte order of the three components, in declaration order. -/
protected def cmp : ApplicationIdentity → ApplicationIdentity → Ordering :=
  compareLex (compareOn fun application => Text.utf8Bytes application.packageId)
    (compareLex (compareOn fun application => Text.utf8Bytes application.stateNamespace)
      (compareOn fun application => Text.utf8Bytes application.deploymentDomain))

instance : Ord ApplicationIdentity :=
  ⟨ApplicationIdentity.cmp⟩

instance : TransOrd ApplicationIdentity :=
  inferInstanceAs (TransCmp (compareLex _ (compareLex _ _)))

instance : LawfulEqOrd ApplicationIdentity where
  eq_of_compare same := by
    rw [ApplicationIdentity.ext_iff]
    simpa using eq_of_compareLex_eq same

end ApplicationIdentity

/-- One row of one durable list. -/
@[ext]
structure DurableRowId where
  listMemoryId : MemoryId
  rowKey : UInt64
  rowGeneration : UInt64
  deriving DecidableEq

namespace DurableRowId

protected def cmp : DurableRowId → DurableRowId → Ordering :=
  compareLex (compareOn listMemoryId) (compareLex (compareOn rowKey) (compareOn rowGeneration))

instance : Ord DurableRowId :=
  ⟨DurableRowId.cmp⟩

instance : TransOrd DurableRowId :=
  inferInstanceAs (TransCmp (compareLex _ (compareLex _ _)))

instance : LawfulEqOrd DurableRowId where
  eq_of_compare same := DurableRowId.ext_iff.mpr (eq_of_compareLex_eq same)

end DurableRowId

/-- The rows that structurally contain a row or a collection, outermost first. -/
structure DurableOwner where
  ancestors : List DurableRowId
  deriving DecidableEq

namespace DurableOwner

instance : Ord DurableOwner :=
  ⟨compareOn ancestors⟩

instance : TransOrd DurableOwner :=
  transOrd_of_compare_eq ancestors fun _ _ => rfl

instance : LawfulEqOrd DurableOwner :=
  lawfulEqOrd_of_compare_eq ancestors (fun ⟨_⟩ ⟨_⟩ same => congrArg _ same) fun _ _ => rfl

end DurableOwner

/-- One step of a collection route: the entry of the parent map that holds the child. -/
@[ext]
structure DurableCollectionOwner where
  parentMemoryId : MemoryId
  key : Value
  generation : UInt64
  deriving DecidableEq

namespace DurableCollectionOwner

protected def cmp : DurableCollectionOwner → DurableCollectionOwner → Ordering :=
  compareLex (compareOn parentMemoryId) (compareLex (compareOn key) (compareOn generation))

instance : Ord DurableCollectionOwner :=
  ⟨DurableCollectionOwner.cmp⟩

instance : TransOrd DurableCollectionOwner :=
  inferInstanceAs (TransCmp (compareLex _ (compareLex _ _)))

instance : LawfulEqOrd DurableCollectionOwner where
  eq_of_compare same := DurableCollectionOwner.ext_iff.mpr (eq_of_compareLex_eq same)

end DurableCollectionOwner

/-- One instance of a durable map or set. -/
@[ext]
structure DurableCollectionId where
  memoryId : MemoryId
  owner : DurableOwner
  collectionAncestors : List DurableCollectionOwner
  deriving DecidableEq

namespace DurableCollectionId

protected def cmp : DurableCollectionId → DurableCollectionId → Ordering :=
  compareLex (compareOn memoryId) (compareLex (compareOn owner) (compareOn collectionAncestors))

instance : Ord DurableCollectionId :=
  ⟨DurableCollectionId.cmp⟩

instance : TransOrd DurableCollectionId :=
  inferInstanceAs (TransCmp (compareLex _ (compareLex _ _)))

instance : LawfulEqOrd DurableCollectionId where
  eq_of_compare same := DurableCollectionId.ext_iff.mpr (eq_of_compareLex_eq same)

end DurableCollectionId

open Data Lib

/-- A stored value with its nested collections referenced by identity. -/
inductive StoredValueShell where
  | number (number : ExactNumber)
  | text (text : String)
  | bytes (bytes : List UInt8)
  | bits (bits : Bits)
  | list (values : List StoredValueShell)
  | object (fields : List (String × StoredValueShell))
  | tag (tag : String) (fields : List (String × StoredValueShell))
  | childAuthority (collectionId : DurableCollectionId)

namespace StoredValueShell

mutual

/-- Structural equality of shells, evaluated. -/
def equal : StoredValueShell → StoredValueShell → Bool
  | .number left, .number right => left == right
  | .text left, .text right => left == right
  | .bytes left, .bytes right => left == right
  | .bits left, .bits right => left == right
  | .list left, .list right => equalValues left right
  | .object left, .object right => equalFields left right
  | .tag leftTag left, .tag rightTag right => leftTag == rightTag && equalFields left right
  | .childAuthority left, .childAuthority right => left == right
  | _, _ => false

def equalValues : List StoredValueShell → List StoredValueShell → Bool
  | [], [] => true
  | left :: lefts, right :: rights => left.equal right && equalValues lefts rights
  | _, _ => false

def equalFields : List (String × StoredValueShell) → List (String × StoredValueShell) → Bool
  | [], [] => true
  | (leftName, left) :: lefts, (rightName, right) :: rights =>
    leftName == rightName && left.equal right && equalFields lefts rights
  | _, _ => false

end

mutual

private theorem equal_eq_true_iff {left right : StoredValueShell} :
    left.equal right = true ↔ left = right := by
  cases left <;> cases right <;> simp [equal, equalValues_eq_true_iff, equalFields_eq_true_iff]
  termination_by structural left

private theorem equalValues_eq_true_iff {left right : List StoredValueShell} :
    equalValues left right = true ↔ left = right := by
  cases left <;> cases right <;> simp [equalValues, equal_eq_true_iff, equalValues_eq_true_iff]
  termination_by structural left

private theorem equalFields_eq_true_iff {left right : List (String × StoredValueShell)} :
    equalFields left right = true ↔ left = right := by
  cases left <;> cases right <;>
    simp [equalFields, Prod.ext_iff, equal_eq_true_iff, equalFields_eq_true_iff]
  termination_by structural left

end

instance : DecidableEq StoredValueShell :=
  fun _ _ => decidable_of_iff _ equal_eq_true_iff

mutual

/-- The collections a shell refers to, in the order of its leaves. -/
def references : StoredValueShell → List DurableCollectionId
  | .number _ => []
  | .text _ => []
  | .bytes _ => []
  | .bits _ => []
  | .list values => referencesValues values
  | .object fields => referencesFields fields
  | .tag _ fields => referencesFields fields
  | .childAuthority collectionId => [collectionId]

def referencesValues : List StoredValueShell → List DurableCollectionId
  | [] => []
  | value :: values => value.references ++ referencesValues values

def referencesFields : List (String × StoredValueShell) → List DurableCollectionId
  | [] => []
  | (_, value) :: fields => value.references ++ referencesFields fields

end

end StoredValueShell

structure StoredScalar where
  touched : Bool
  value : Value
  deriving DecidableEq

structure StoredRow where
  key : UInt64
  generation : UInt64
  sourceOrderToken : BitVec 128
  owner : DurableOwner
  materializationOrigin : Option DurableOwner
  fields : BTreeMap MemoryLeafId StoredValueShell
  touchedFields : BTreeSet MemoryLeafId
  deriving DecidableEq

/-- The row carries the given key and generation. -/
def StoredRow.matches (row : StoredRow) (key generation : UInt64) : Bool :=
  row.key == key && row.generation == generation

structure StoredList where
  touched : Bool
  revision : UInt64
  nextKey : UInt64
  nextOrderToken : BitVec 128
  rows : List StoredRow
  deriving DecidableEq

structure StoredMap where
  touched : Bool
  revision : UInt64
  nextKeyGeneration : UInt64
  keyGenerations : BTreeMap Value UInt64
  entries : BTreeMap Value StoredValueShell
  deriving DecidableEq

structure StoredSet where
  touched : Bool
  revision : UInt64
  items : BTreeSet Value
  deriving DecidableEq

inductive DurableOutboxState where
  | pending
  | dispatching (attempt : UInt32)
  | reconciliationRequired (attempt : UInt32)
  | completed (attempt : UInt32) (outcome : Value)
  deriving DecidableEq

def DurableOutboxState.attempt : DurableOutboxState → UInt32
  | .pending => 0
  | .dispatching attempt => attempt
  | .reconciliationRequired attempt => attempt
  | .completed attempt _ => attempt

structure DurableOutboxItem where
  itemId : OutboxItemId
  invocationId : EffectInvocationId
  effectId : EffectId
  owner : DurableOwner
  targetRow : Option DurableRowId
  idempotencyKey : Value
  intent : Value
  state : DurableOutboxState
  revision : UInt64
  createdTurnSequence : UInt64
  updatedTurnSequence : UInt64
  deriving DecidableEq

inductive DurableOutboxChange where
  | enqueue (item : DurableOutboxItem)
  | beginDispatch (itemId : OutboxItemId) (expectedRevision nextRevision : UInt64)
      (attempt : UInt32) (turnSequence : UInt64)
  | requireReconciliation (itemId : OutboxItemId) (expectedRevision nextRevision : UInt64)
      (attempt : UInt32) (turnSequence : UInt64)
  | complete (itemId : OutboxItemId) (expectedRevision nextRevision : UInt64)
      (attempt : UInt32) (outcome : Value) (turnSequence : UInt64)
  deriving DecidableEq

abbrev Outbox : Type := BTreeMap OutboxItemId DurableOutboxItem

inductive ContentArtifactRetention where
  | replaceable
  | immutable
  deriving DecidableEq

structure ContentArtifactBinding where
  artifactId : ContentArtifactId
  retention : ContentArtifactRetention
  deriving DecidableEq

structure ContentArtifactManifest where
  bindings : BTreeMap ContentArtifactOwnerId ContentArtifactBinding
  deriving DecidableEq

instance : EmptyCollection ContentArtifactManifest :=
  ⟨⟨∅⟩⟩

inductive DurableContentArtifactChange where
  | setReplaceable (ownerId : ContentArtifactOwnerId) (artifactId : ContentArtifactId)
  | insertImmutable (ownerId : ContentArtifactOwnerId) (artifactId : ContentArtifactId)
  | release (ownerId : ContentArtifactOwnerId) (expectedArtifactId : ContentArtifactId)
  deriving DecidableEq

structure ContentArtifact where
  id : ContentArtifactId
  mediaType : String
  bytes : List UInt8
  deriving DecidableEq

abbrev ArtifactMap : Type := BTreeMap ContentArtifactId ContentArtifact

structure RestoreImage where
  application : ApplicationIdentity
  schemaVersion : UInt64
  schemaHash : Digest
  epoch : UInt64
  throughTurnSequence : UInt64
  scalars : BTreeMap MemoryId StoredScalar
  lists : BTreeMap MemoryId StoredList
  maps : BTreeMap DurableCollectionId StoredMap
  sets : BTreeMap DurableCollectionId StoredSet
  completedMigrationEdges : BTreeSet MigrationEdgeId
  outbox : Outbox
  contentArtifactManifest : ContentArtifactManifest
  deriving DecidableEq

/-- The image of an application without any durable authority. -/
def RestoreImage.empty (application : ApplicationIdentity) (schemaVersion : UInt64)
    (schemaHash : Digest) : RestoreImage where
  application := application
  schemaVersion := schemaVersion
  schemaHash := schemaHash
  epoch := 0
  throughTurnSequence := 0
  scalars := ∅
  lists := ∅
  maps := ∅
  sets := ∅
  completedMigrationEdges := ∅
  outbox := ∅
  contentArtifactManifest := ∅

inductive DurableChange where
  | setScalar (memoryId : MemoryId) (value : StoredScalar)
  | deleteScalar (memoryId : MemoryId)
  | setList (memoryId : MemoryId) (value : StoredList)
  | setRowField (memoryId : MemoryId) (listRevision rowKey rowGeneration : UInt64)
      (owner : DurableOwner) (materializationOrigin : Option DurableOwner)
      (fieldId : MemoryLeafId) (value : StoredValueShell)
  | insertRow (memoryId : MemoryId) (listRevision index : UInt64) (row : StoredRow)
      (nextKey : UInt64) (nextOrderToken : BitVec 128)
  | removeRow (memoryId : MemoryId) (listRevision rowKey rowGeneration nextKey : UInt64)
      (nextOrderToken : BitVec 128)
  | deleteList (memoryId : MemoryId)
  | setMap (collectionId : DurableCollectionId) (value : StoredMap)
  | mapUpsert (collectionId : DurableCollectionId) (revision : UInt64) (key : Value)
      (keyGeneration nextKeyGeneration : UInt64) (value : StoredValueShell)
  | mapRemove (collectionId : DurableCollectionId) (revision : UInt64) (key : Value)
      (nextKeyGeneration : UInt64)
  | deleteMap (collectionId : DurableCollectionId)
  | setSet (collectionId : DurableCollectionId) (value : StoredSet)
  | setAdd (collectionId : DurableCollectionId) (revision : UInt64) (item : Value)
  | setRemove (collectionId : DurableCollectionId) (revision : UInt64) (item : Value)
  | deleteSet (collectionId : DurableCollectionId)
  deriving DecidableEq

structure CheckpointBatch where
  application : ApplicationIdentity
  schemaHash : Digest
  baseEpoch : UInt64
  nextEpoch : UInt64
  firstTurnSequence : UInt64
  lastTurnSequence : UInt64
  changes : List DurableChange
  outboxChanges : List DurableOutboxChange
  contentArtifactChanges : List DurableContentArtifactChange
  checksum : Digest
  deriving DecidableEq

structure ResetApplicationBatch where
  application : ApplicationIdentity
  expectedBaseEpoch : UInt64
  nextEpoch : UInt64
  sourceSchemaHash : Digest
  defaultImage : RestoreImage
  throughTurnSequence : UInt64
  authorityChanges : List DurableChange
  outboxChanges : List DurableOutboxChange
  checksum : Digest
  deriving DecidableEq

structure ActivationBatch where
  application : ApplicationIdentity
  expectedBaseEpoch : UInt64
  nextEpoch : UInt64
  sourceSchemaHash : Digest
  targetSchemaVersion : UInt64
  targetSchemaHash : Digest
  throughTurnSequence : UInt64
  authorityChanges : List DurableChange
  outboxChanges : List DurableOutboxChange
  completedMigrationEdges : List MigrationEdgeId
  deletedMemory : List MemoryId
  targetContentArtifactManifest : ContentArtifactManifest
  contentArtifacts : ArtifactMap
  checksum : Digest
  deriving DecidableEq

inductive StoreError where
  | closed
  | missingApplication
  | identityMismatch
  | schemaMismatch
  | staleEpoch
  | nonContiguousTurn
  | invalidChecksum
  | invalidAuthority (detail : String)
  | invalidOutboxTransition (detail : String)
  | invalidContentArtifact (detail : String)
  | backend (detail : String)
  deriving DecidableEq

structure CommitAck where
  epoch : UInt64
  throughTurnSequence : UInt64
  deriving DecidableEq

structure ActivationAck where
  epoch : UInt64
  schemaVersion : UInt64
  schemaHash : Digest
  throughTurnSequence : UInt64
  deriving DecidableEq

structure ResetApplicationAck where
  epoch : UInt64
  schemaVersion : UInt64
  schemaHash : Digest
  throughTurnSequence : UInt64
  deriving DecidableEq

end BoonCircuit.Persistence
