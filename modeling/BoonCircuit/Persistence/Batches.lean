import BoonCircuit.Persistence.Artifacts
import BoonCircuit.Persistence.Changes
import BoonCircuit.Persistence.Hashing
import BoonCircuit.Persistence.Validation

/-!
# Outbox transitions and batches

Validated transitions of durable effect obligations, validation of the three batch
kinds and of initial images, and the functions that apply an accepted batch to an
image.  Counter additions without an explicit overflow check wrap around, as in the
release build.  The hash is a parameter.
-/

namespace BoonCircuit.Persistence

open Data Lib Checks

/-- A rejected outbox transition. -/
def invalidOutboxTransition (fault : Prop) [Decidable fault] (detail : String) : Outcome Unit :=
  reject fault (.invalidOutboxTransition detail)

/-- A state as it appears in error messages; the payload of an outcome is left out. -/
def DurableOutboxState.debug : DurableOutboxState → String
  | .pending => "Pending"
  | .dispatching attempt => s!"Dispatching \x7b attempt: {attempt} \x7d"
  | .reconciliationRequired attempt => s!"ReconciliationRequired \x7b attempt: {attempt} \x7d"
  | .completed attempt _ => s!"Completed \x7b attempt: {attempt}, outcome: .. \x7d"

section Transitions

variable (sha256 : List UInt8 → Digest)

/-- Whether the state of an item fits its revision. -/
def validateOutboxState (item : DurableOutboxItem) : Outcome Unit :=
  match item.state with
  | .pending =>
    invalidOutboxTransition (item.revision ≠ 0)
      s!"pending outbox item {item.itemId} must be at revision zero"
  | state =>
    invalidOutboxTransition (state.attempt = 0 ∨ item.revision = 0)
      s!"active outbox item {item.itemId} must have a positive attempt and revision"

def validateOutboxItem (item : DurableOutboxItem) : Outcome Unit := do
  (validateDurableOwner item.owner true).mapError .invalidOutboxTransition
  forSome item.targetRow fun target =>
    invalidOutboxTransition (target.rowGeneration = 0) "outbox target row has zero generation"
  invalidOutboxTransition
    (item.itemId ≠ OutboxItemId.fromInvocation sha256 item.invocationId item.effectId
      item.idempotencyKey item.owner item.targetRow)
    s!"outbox item {item.itemId} does not match its effect and idempotency key"
  invalidOutboxTransition (item.updatedTurnSequence < item.createdTurnSequence)
    s!"outbox item {item.itemId} has decreasing turn provenance"
  validateOutboxState item

def validateOutbox (outbox : Outbox) : Outcome Unit :=
  forM outbox.toList fun entry => do
    invalidOutboxTransition (entry.1 ≠ entry.2.itemId) "outbox map key does not match item ID"
    validateOutboxItem sha256 entry.2

/-- Moves one item to a new state; a transition that already happened is accepted. -/
def transitionOutboxItem (outbox : Outbox) (itemId : OutboxItemId)
    (expectedRevision nextRevision turnSequence : UInt64) (desiredState : DurableOutboxState)
    (allowed : DurableOutboxState → Bool) : Outcome Outbox := do
  invalidOutboxTransition (expectedRevision = 0xFFFFFFFFFFFFFFFF) "outbox revision overflow"
  invalidOutboxTransition (nextRevision ≠ expectedRevision + 1)
    "outbox revisions must advance by exactly one"
  let item ← okOr outbox[itemId]?
    (.invalidOutboxTransition s!"outbox item {itemId} does not exist")
  if item.revision = nextRevision ∧ item.updatedTurnSequence = turnSequence ∧
      item.state = desiredState then
    pure outbox
  else do
    invalidOutboxTransition (item.revision ≠ expectedRevision)
      s!"outbox item {itemId} is at revision {item.revision}, expected {expectedRevision}"
    invalidOutboxTransition (turnSequence < item.updatedTurnSequence)
      s!"outbox item {itemId} cannot move backwards in turn order"
    invalidOutboxTransition (allowed item.state = false)
      (s!"outbox item {itemId} cannot transition from {item.state.debug} to " ++
        s!"{desiredState.debug}")
    pure (outbox.insert itemId { item with
      state := desiredState
      revision := nextRevision
      updatedTurnSequence := turnSequence })

/-- Dispatching starts at attempt one and goes on after a reconciliation. -/
def dispatchAllowed (attempt : UInt32) : DurableOutboxState → Bool
  | .pending => attempt == 1
  | .reconciliationRequired previous =>
    attempt == if previous = 0xFFFFFFFF then previous else previous + 1
  | _ => false

def reconciliationAllowed (attempt : UInt32) : DurableOutboxState → Bool
  | .dispatching current => current == attempt
  | _ => false

def completionAllowed (attempt : UInt32) : DurableOutboxState → Bool
  | .dispatching current => current == attempt
  | .reconciliationRequired current => current == attempt
  | _ => false

/-- Adds a new item; adding the same item again is accepted. -/
def enqueueOutboxItem (outbox : Outbox) (item : DurableOutboxItem) : Outcome Outbox := do
  validateOutboxItem sha256 item
  invalidOutboxTransition (item.state ≠ .pending ∨ item.revision ≠ 0)
    "new outbox items must start pending at revision zero"
  match outbox[item.itemId]? with
  | some existing =>
    if existing = item then pure outbox
    else .error (.invalidOutboxTransition
      s!"outbox item {item.itemId} already exists with different durable content")
  | none => pure (outbox.insert item.itemId item)

def applyDurableOutboxChange (outbox : Outbox) : DurableOutboxChange → Outcome Outbox
  | .enqueue item => enqueueOutboxItem sha256 outbox item
  | .beginDispatch itemId expectedRevision nextRevision attempt turnSequence =>
    transitionOutboxItem outbox itemId expectedRevision nextRevision turnSequence
      (.dispatching attempt) (dispatchAllowed attempt)
  | .requireReconciliation itemId expectedRevision nextRevision attempt turnSequence =>
    transitionOutboxItem outbox itemId expectedRevision nextRevision turnSequence
      (.reconciliationRequired attempt) (reconciliationAllowed attempt)
  | .complete itemId expectedRevision nextRevision attempt outcome turnSequence => do
    let outbox ← transitionOutboxItem outbox itemId expectedRevision nextRevision turnSequence
      (.completed attempt outcome) (completionAllowed attempt)
    -- The checkpoint that stores the outcome also consumes the obligation.
    pure (outbox.erase itemId)

def applyDurableOutboxChanges (outbox : Outbox) (changes : List DurableOutboxChange) :
    Outcome Outbox :=
  changes.foldlM (applyDurableOutboxChange sha256) outbox

end Transitions

inductive AuthorityKind where
  | scalar
  | list
  | map
  | set
  deriving DecidableEq

def AuthorityKind.name : AuthorityKind → String
  | .scalar => "scalar"
  | .list => "list"
  | .map => "map"
  | .set => "set"

/-- Every use of a memory as an authority, in the order of validation. -/
def RestoreImage.authorityUses (image : RestoreImage) : List (MemoryId × AuthorityKind) :=
  image.scalars.keys.map (·, .scalar) ++ image.lists.keys.map (·, .list) ++
    image.maps.keys.map (fun collectionId => (collectionId.memoryId, .map)) ++
    image.sets.keys.map fun collectionId => (collectionId.memoryId, .set)

/-- Records one use of a memory, which must agree with the use recorded before. -/
def recordKind (kinds : BTreeMap MemoryId AuthorityKind) (use : MemoryId × AuthorityKind) :
    Outcome (BTreeMap MemoryId AuthorityKind) := do
  forSome kinds[use.1]? fun previous =>
    invalidAuthority (previous ≠ use.2)
      s!"memory {use.1} is stored as both {previous.name} and {use.2.name}"
  pure (kinds.insert use.1 use.2)

def validateAuthorityKindsDisjoint (image : RestoreImage) : Outcome Unit :=
  discard (image.authorityUses.foldlM recordKind ∅)

section Batches

variable (sha256 : List UInt8 → Digest)

def validateInitialImage (image : RestoreImage) : Outcome Unit := do
  invalidAuthority (image.epoch ≠ 0 ∨ image.throughTurnSequence ≠ 0)
    "initial restore image must start at epoch and turn zero"
  forM image.lists.toList fun entry => validateList entry.1 entry.2
  forM image.maps.toList fun entry => validateMap entry.1 entry.2
  forM image.sets.toList fun entry => validateSet entry.1 entry.2
  validateCollectionAuthorityGraph image
  validateAuthorityKindsDisjoint image
  validateOutbox sha256 image.outbox
  validateContentArtifactManifest image.contentArtifactManifest
  invalidContentArtifact (image.contentArtifactManifest.bindings.isEmpty = false)
    ("initial restore image cannot contain artifact bindings without an atomic artifact " ++
      "closure")

/-- The turn an outbox change belongs to. -/
def DurableOutboxChange.turn : DurableOutboxChange → UInt64
  | .enqueue item => item.createdTurnSequence
  | .beginDispatch _ _ _ _ turnSequence => turnSequence
  | .requireReconciliation _ _ _ _ turnSequence => turnSequence
  | .complete _ _ _ _ _ turnSequence => turnSequence

def validateCheckpoint (batch : CheckpointBatch) : Outcome Unit := do
  reject (batch.checksum ≠ checkpointChecksum sha256 batch) .invalidChecksum
  forM batch.outboxChanges fun change =>
    invalidOutboxTransition
      (change.turn < batch.firstTurnSequence ∨ batch.lastTurnSequence < change.turn)
      (s!"outbox transition turn {change.turn} is outside checkpoint range " ++
        s!"{batch.firstTurnSequence}..={batch.lastTurnSequence}")

def applyCheckpointToImage (image : RestoreImage) (batch : CheckpointBatch) :
    Outcome (RestoreImage × CommitAck) := do
  validateCheckpoint sha256 batch
  reject (image.application ≠ batch.application) .identityMismatch
  reject (image.schemaHash ≠ batch.schemaHash) .schemaMismatch
  reject (image.epoch ≠ batch.baseEpoch ∨ batch.nextEpoch ≠ batch.baseEpoch + 1) .staleEpoch
  reject (batch.firstTurnSequence ≠ image.throughTurnSequence + 1 ∨
    batch.lastTurnSequence < batch.firstTurnSequence) .nonContiguousTurn
  let candidate ← applyChanges image batch.changes
  let outbox ← applyDurableOutboxChanges sha256 candidate.outbox batch.outboxChanges
  let manifest ← applyDurableContentArtifactChanges candidate.contentArtifactManifest
    batch.contentArtifactChanges
  validateOutbox sha256 outbox
  pure ({ candidate with
      outbox := outbox
      contentArtifactManifest := manifest
      epoch := batch.nextEpoch
      throughTurnSequence := batch.lastTurnSequence },
    { epoch := batch.nextEpoch, throughTurnSequence := batch.lastTurnSequence })

/-- Whether an image holds any durable authority, history or pending work. -/
def RestoreImage.hasAuthority (image : RestoreImage) : Bool :=
  !image.scalars.isEmpty || !image.lists.isEmpty || !image.maps.isEmpty ||
    !image.sets.isEmpty || !image.completedMigrationEdges.isEmpty || !image.outbox.isEmpty ||
    !image.contentArtifactManifest.bindings.isEmpty

/-- The default image of a reset with the reset's own work applied. -/
def activateDefault (batch : ResetApplicationBatch) : Outcome RestoreImage := do
  let activated ← applyChanges batch.defaultImage batch.authorityChanges
  let outbox ← applyDurableOutboxChanges sha256 activated.outbox batch.outboxChanges
  validateOutbox sha256 outbox
  pure { activated with outbox := outbox }

def validateReset (batch : ResetApplicationBatch) : Outcome Unit := do
  reject (batch.checksum ≠ resetChecksum sha256 batch) .invalidChecksum
  validateInitialImage sha256 batch.defaultImage
  reject (batch.application ≠ batch.defaultImage.application) .identityMismatch
  invalidAuthority batch.defaultImage.hasAuthority
    ("start-over default image must contain no durable authority, migration history, or " ++
      "outbox work")
  invalidAuthority (batch.defaultImage.schemaVersion = 0)
    "start-over target schema version must be positive"
  reject (batch.throughTurnSequence < batch.defaultImage.throughTurnSequence) .nonContiguousTurn
  discard (activateDefault sha256 batch)

def applyResetToImage (current : RestoreImage) (batch : ResetApplicationBatch) :
    Outcome (RestoreImage × ResetApplicationAck) := do
  validateReset sha256 batch
  reject (current.application ≠ batch.application ∨
    batch.defaultImage.application ≠ batch.application) .identityMismatch
  reject (current.epoch ≠ batch.expectedBaseEpoch ∨
    batch.expectedBaseEpoch = 0xFFFFFFFFFFFFFFFF ∨
    batch.nextEpoch ≠ batch.expectedBaseEpoch + 1) .staleEpoch
  reject (current.schemaHash ≠ batch.sourceSchemaHash) .schemaMismatch
  reject (batch.throughTurnSequence < current.throughTurnSequence) .nonContiguousTurn
  let activated ← activateDefault sha256 batch
  let reset := { activated with
    epoch := batch.nextEpoch
    throughTurnSequence := batch.throughTurnSequence }
  pure (reset, ⟨reset.epoch, reset.schemaVersion, reset.schemaHash, reset.throughTurnSequence⟩)

def validateActivation (batch : ActivationBatch) : Outcome Unit := do
  reject (batch.checksum ≠ activationChecksum sha256 batch) .invalidChecksum
  invalidAuthority (batch.targetSchemaVersion = 0) "target schema version must be positive"
  validateContentArtifactManifest batch.targetContentArtifactManifest
  validateContentArtifactMap sha256 batch.contentArtifacts
  forSome (batch.contentArtifacts.keys.find? fun id =>
      !batch.targetContentArtifactManifest.reachableArtifactIds.contains id) fun extra =>
    .error (.invalidContentArtifact s!"activation supplies unreferenced artifact {extra}")

/-- Drops every authority of one memory. -/
def deleteMemory (image : RestoreImage) (memory : MemoryId) : RestoreImage :=
  { image with
    scalars := image.scalars.erase memory
    lists := image.lists.erase memory
    maps := image.maps.filter fun collectionId _ => collectionId.memoryId != memory
    sets := image.sets.filter fun collectionId _ => collectionId.memoryId != memory }

def applyActivationToImage (current : RestoreImage) (batch : ActivationBatch) :
    Outcome (RestoreImage × ActivationAck) := do
  validateActivation sha256 batch
  reject (current.application ≠ batch.application) .identityMismatch
  reject (current.epoch ≠ batch.expectedBaseEpoch ∨
    batch.nextEpoch ≠ batch.expectedBaseEpoch + 1) .staleEpoch
  reject (current.schemaHash ≠ batch.sourceSchemaHash) .schemaMismatch
  reject (batch.throughTurnSequence < current.throughTurnSequence) .nonContiguousTurn
  let candidate ← applyChanges current batch.authorityChanges
  let outbox ← applyDurableOutboxChanges sha256 candidate.outbox batch.outboxChanges
  validateOutbox sha256 outbox
  let remaining := batch.deletedMemory.foldl deleteMemory candidate
  let activated := { remaining with
    outbox := outbox
    completedMigrationEdges :=
      batch.completedMigrationEdges.foldl (·.insert ·) remaining.completedMigrationEdges
    schemaVersion := batch.targetSchemaVersion
    schemaHash := batch.targetSchemaHash
    epoch := batch.nextEpoch
    throughTurnSequence := batch.throughTurnSequence
    contentArtifactManifest := batch.targetContentArtifactManifest }
  pure (activated,
    ⟨activated.epoch, activated.schemaVersion, activated.schemaHash, activated.throughTurnSequence⟩)

end Batches

end BoonCircuit.Persistence
