import BoonCircuit.Lib.Actions
import BoonCircuit.Lib.Overlay
import BoonCircuit.Persistence.Batches

/-!
# The in-memory driver

The reference driver keeps the images of all applications in one ordered map and
their content artifacts in another, keyed by application and content identity.
Its methods are actions on this state, with reads, checks and writes in the order
of the source.
-/

namespace BoonCircuit.Persistence

open Data Lib Checks Action

/-- Where the artifact of an application is stored. -/
structure ArtifactKey where
  application : ApplicationIdentity
  id : ContentArtifactId
  deriving DecidableEq

namespace ArtifactKey

protected def cmp : ArtifactKey → ArtifactKey → Ordering :=
  compareLex (compareOn application) (compareOn id)

instance : Ord ArtifactKey :=
  ⟨ArtifactKey.cmp⟩

instance : Std.TransOrd ArtifactKey :=
  inferInstanceAs (Std.TransCmp (compareLex _ _))

instance : Std.LawfulEqOrd ArtifactKey where
  eq_of_compare {left right} same := by
    rcases left with ⟨_, _⟩
    rcases right with ⟨_, _⟩
    change compareLex (compareOn application) (compareOn id) _ _ = .eq at same
    simpa only [compareLex, compareOn, Ordering.then_eq_eq, Std.compare_eq_iff_eq,
      ArtifactKey.mk.injEq] using same

end ArtifactKey

structure RestoreRequest where
  application : ApplicationIdentity
  expectedSchemaHash : Option Digest

structure BarrierRequest where
  application : ApplicationIdentity
  throughEpoch : UInt64

structure InspectRequest where
  application : ApplicationIdentity

structure CompactRequest where
  application : ApplicationIdentity

structure ExportApplicationRequest where
  application : ApplicationIdentity

structure PutContentArtifactRequest where
  application : ApplicationIdentity
  artifact : ContentArtifact

structure LoadContentArtifactRequest where
  application : ApplicationIdentity
  id : ContentArtifactId

inductive PersistenceCommand where
  | load (request : RestoreRequest)
  | initializeImage (image : RestoreImage)
  | commit (batch : CheckpointBatch)
  | activate (batch : ActivationBatch)
  | resetApplication (batch : ResetApplicationBatch)
  | barrier (request : BarrierRequest)
  | inspect (request : InspectRequest)
  | compact (request : CompactRequest)
  | exportApplication (request : ExportApplicationRequest)
  | putContentArtifact (request : PutContentArtifactRequest)
  | loadContentArtifact (request : LoadContentArtifactRequest)
  | shutdown

def PersistenceCommand.isShutdown : PersistenceCommand → Bool
  | .shutdown => true
  | _ => false

structure BarrierAck where
  epoch : UInt64
  deriving DecidableEq

structure CompactAck where
  epoch : UInt64
  deriving DecidableEq

structure PutContentArtifactAck where
  id : ContentArtifactId
  storedBytes : UInt64
  alreadyPresent : Bool
  deriving DecidableEq

/-- A self-contained snapshot of one application. -/
structure ApplicationTransfer where
  restoreImage : RestoreImage
  contentArtifacts : ArtifactMap
  deriving DecidableEq

inductive OutboxInspectorState where
  | pending
  | dispatching
  | reconciliationRequired
  | completed
  deriving DecidableEq

structure OutboxInspectorSample where
  itemId : OutboxItemId
  invocationId : EffectInvocationId
  effectId : EffectId
  state : OutboxInspectorState
  attempt : UInt32
  createdTurnSequence : UInt64
  updatedTurnSequence : UInt64
  deriving DecidableEq

structure PersistenceInspectorSnapshot where
  application : ApplicationIdentity
  schemaVersion : UInt64
  schemaHash : Digest
  epoch : UInt64
  throughTurnSequence : UInt64
  scalarCount : Nat
  listCount : Nat
  rowCount : Nat
  mapCount : Nat
  mapEntryCount : Nat
  setCount : Nat
  setItemCount : Nat
  contentArtifactCount : Nat
  contentArtifactBytes : Nat
  contentArtifactOwnerCount : Nat
  contentArtifactRetainedCount : Nat
  contentArtifactRetainedBytes : Nat
  contentArtifactOrphanCount : Nat
  contentArtifactOrphanBytes : Nat
  encodedValueBytes : Option UInt64
  completedMigrationCount : Nat
  outboxPendingCount : Nat
  outboxDispatchingCount : Nat
  outboxReconciliationCount : Nat
  outboxCompletedCount : Nat
  outboxSamples : List OutboxInspectorSample
  deriving DecidableEq

inductive PersistenceResult where
  | loaded (outcome : Outcome (Option RestoreImage))
  | initialized (outcome : Outcome CommitAck)
  | committed (outcome : Outcome CommitAck)
  | activated (outcome : Outcome ActivationAck)
  | applicationReset (outcome : Outcome ResetApplicationAck)
  | barrierComplete (outcome : Outcome BarrierAck)
  | inspected (outcome : Outcome (Option PersistenceInspectorSnapshot))
  | compacted (outcome : Outcome CompactAck)
  | applicationExported (outcome : Outcome ApplicationTransfer)
  | contentArtifactStored (outcome : Outcome PutContentArtifactAck)
  | contentArtifactLoaded (outcome : Outcome (Option ContentArtifact))
  | shutdownComplete (outcome : Outcome Unit)

/-- The error of a result, if it is one. -/
def PersistenceResult.error? : PersistenceResult → Option StoreError
  | .loaded (.error error) => some error
  | .initialized (.error error) => some error
  | .committed (.error error) => some error
  | .activated (.error error) => some error
  | .applicationReset (.error error) => some error
  | .barrierComplete (.error error) => some error
  | .inspected (.error error) => some error
  | .compacted (.error error) => some error
  | .applicationExported (.error error) => some error
  | .contentArtifactStored (.error error) => some error
  | .contentArtifactLoaded (.error error) => some error
  | .shutdownComplete (.error error) => some error
  | _ => none

def errorResult (command : PersistenceCommand) (error : StoreError) : PersistenceResult :=
  match command with
  | .load _ => .loaded (.error error)
  | .initializeImage _ => .initialized (.error error)
  | .commit _ => .committed (.error error)
  | .activate _ => .activated (.error error)
  | .resetApplication _ => .applicationReset (.error error)
  | .barrier _ => .barrierComplete (.error error)
  | .inspect _ => .inspected (.error error)
  | .compact _ => .compacted (.error error)
  | .exportApplication _ => .applicationExported (.error error)
  | .putContentArtifact _ => .contentArtifactStored (.error error)
  | .loadContentArtifact _ => .contentArtifactLoaded (.error error)
  | .shutdown => .shutdownComplete (.error error)

def maxOutboxInspectorSamples : Nat := 16

def DurableOutboxState.inspectorState : DurableOutboxState → OutboxInspectorState
  | .pending => .pending
  | .dispatching _ => .dispatching
  | .reconciliationRequired _ => .reconciliationRequired
  | .completed _ _ => .completed

/-- The number of outbox items in one state. -/
def outboxCount (outbox : Outbox) (state : OutboxInspectorState) : Nat :=
  outbox.toList.countP fun entry => entry.2.state.inspectorState = state

def outboxSample (item : DurableOutboxItem) : OutboxInspectorSample where
  itemId := item.itemId
  invocationId := item.invocationId
  effectId := item.effectId
  state := item.state.inspectorState
  attempt := item.state.attempt
  createdTurnSequence := item.createdTurnSequence
  updatedTurnSequence := item.updatedTurnSequence

def inspectorSnapshotWithArtifacts (image : RestoreImage) (stats : ContentArtifactStorageStats) :
    PersistenceInspectorSnapshot where
  application := image.application
  schemaVersion := image.schemaVersion
  schemaHash := image.schemaHash
  epoch := image.epoch
  throughTurnSequence := image.throughTurnSequence
  scalarCount := image.scalars.size
  listCount := image.lists.size
  rowCount := (image.lists.toList.map fun entry => entry.2.rows.length).sum
  mapCount := image.maps.size
  mapEntryCount := (image.maps.toList.map fun entry => entry.2.entries.size).sum
  setCount := image.sets.size
  setItemCount := (image.sets.toList.map fun entry => entry.2.items.size).sum
  contentArtifactCount := stats.totalCount
  contentArtifactBytes := stats.totalBytes
  contentArtifactOwnerCount := stats.ownerCount
  contentArtifactRetainedCount := stats.retainedCount
  contentArtifactRetainedBytes := stats.retainedBytes
  contentArtifactOrphanCount := stats.orphanCount
  contentArtifactOrphanBytes := stats.orphanBytes
  encodedValueBytes := none
  completedMigrationCount := image.completedMigrationEdges.size
  outboxPendingCount := outboxCount image.outbox .pending
  outboxDispatchingCount := outboxCount image.outbox .dispatching
  outboxReconciliationCount := outboxCount image.outbox .reconciliationRequired
  outboxCompletedCount := outboxCount image.outbox .completed
  outboxSamples :=
    (image.outbox.toList.take maxOutboxInspectorSamples).map fun entry => outboxSample entry.2

structure InMemoryDriver where
  applications : BTreeMap ApplicationIdentity RestoreImage
  artifacts : BTreeMap ArtifactKey ContentArtifact
  closed : Bool
  failNextActivation : Bool

/-- A driver without any application. -/
def InMemoryDriver.empty : InMemoryDriver where
  applications := ∅
  artifacts := ∅
  closed := false
  failNextActivation := false

namespace InMemoryDriver

def applicationArtifacts (driver : InMemoryDriver) (application : ApplicationIdentity) :
    ArtifactMap :=
  .ofList (driver.artifacts.toList.filterMap fun entry =>
    if entry.1.application = application then some (entry.1.id, entry.2) else none) compare

/-- The driver after `replace_application_artifacts`. -/
def replaceApplicationArtifacts (driver : InMemoryDriver) (application : ApplicationIdentity)
    (artifacts : ArtifactMap) : InMemoryDriver :=
  { driver with
    artifacts := BTreeMap.writeAll
      (driver.artifacts.filter fun key _ => decide (key.application ≠ application))
      (artifacts.toList.map fun entry => (⟨application, entry.1⟩, entry.2)) }

/-- The driver with one image replaced. -/
def withImage (driver : InMemoryDriver) (application : ApplicationIdentity)
    (image : RestoreImage) : InMemoryDriver :=
  { driver with applications := driver.applications.insert application image }

end InMemoryDriver

abbrev DriverAction (α : Type) : Type :=
  Action InMemoryDriver StoreError α

/-- The image of an application that must exist. -/
def InMemoryDriver.findImage (driver : InMemoryDriver) (application : ApplicationIdentity) :
    Outcome RestoreImage :=
  okOr driver.applications[application]? .missingApplication

/-- The error of different artifacts with one digest. -/
def artifactCollision : StoreError :=
  .invalidContentArtifact "content digest collides with different artifact bytes"

/-- Makes one supplied artifact available. -/
def supplyArtifact (available : ArtifactMap) (entry : ContentArtifactId × ContentArtifact) :
    Outcome ArtifactMap :=
  match available[entry.1]? with
  | some existing => if existing = entry.2 then .ok available else .error artifactCollision
  | none => .ok (available.insert entry.1 entry.2)

namespace InMemoryDriver

section Methods

variable (sha256 : List UInt8 → Digest)

def load (request : RestoreRequest) : DriverAction (Option RestoreImage) := do
  let driver ← get
  let image := driver.applications[request.application]?
  attempt (forSome image fun image =>
    forSome request.expectedSchemaHash fun expected =>
      reject (expected ≠ image.schemaHash) .schemaMismatch)
  attempt (forSome image fun image =>
    discard (validateContentArtifactStorage sha256 image.contentArtifactManifest
      (driver.applicationArtifacts request.application)))
  pure image

def initializeImage (image : RestoreImage) : DriverAction CommitAck := do
  attempt (validateInitialImage sha256 image)
  let driver ← get
  match driver.applications[image.application]? with
  | some existing =>
    if existing = image then pure ⟨existing.epoch, existing.throughTurnSequence⟩
    else throw .identityMismatch
  | none =>
    set (driver.withImage image.application image)
    pure ⟨image.epoch, image.throughTurnSequence⟩

def commit (batch : CheckpointBatch) : DriverAction CommitAck := do
  let driver ← get
  let image ← attempt (findImage driver batch.application)
  let (candidate, ack) ← attempt (applyCheckpointToImage sha256 image batch)
  let artifacts := driver.applicationArtifacts batch.application
  let _ ← attempt
    (validateContentArtifactStorage sha256 candidate.contentArtifactManifest artifacts)
  set (driver.withImage batch.application candidate)
  pure ack

def activate (batch : ActivationBatch) : DriverAction ActivationAck := do
  let driver ← get
  if driver.failNextActivation then
    set { driver with failNextActivation := false }
    throw (.backend "injected activation failure")
  else
    let current ← attempt (findImage driver batch.application)
    let available ← attempt (batch.contentArtifacts.toList.foldlM supplyArtifact
      (driver.applicationArtifacts batch.application))
    let (candidate, ack) ← attempt (applyActivationToImage sha256 current batch)
    let candidateArtifacts ← attempt
      (exactContentArtifactClosure sha256 candidate.contentArtifactManifest available)
    let _ ← attempt (validateContentArtifactStorage sha256 candidate.contentArtifactManifest
      candidateArtifacts)
    set ((driver.withImage batch.application candidate).replaceApplicationArtifacts
      batch.application candidateArtifacts)
    pure ack

def resetApplication (batch : ResetApplicationBatch) : DriverAction ResetApplicationAck := do
  let driver ← get
  let current ← attempt (findImage driver batch.application)
  let (reset, ack) ← attempt (applyResetToImage sha256 current batch)
  set ((driver.replaceApplicationArtifacts batch.application ∅).withImage batch.application reset)
  pure ack

def putContentArtifact (request : PutContentArtifactRequest) :
    DriverAction PutContentArtifactAck := do
  attempt (validateContentArtifact sha256 request.artifact)
  let driver ← get
  let image ← attempt (findImage driver request.application)
  let stored := driver.applicationArtifacts request.application
  let artifacts ← attempt (supplyArtifact stored (request.artifact.id, request.artifact))
  let _ ← attempt (validateContentArtifactStorage sha256 image.contentArtifactManifest artifacts)
  set (driver.replaceApplicationArtifacts request.application artifacts)
  pure {
    id := request.artifact.id
    storedBytes := .ofNat (min request.artifact.bytes.length (wordLimit - 1))
    alreadyPresent := stored.contains request.artifact.id }

def loadContentArtifact (request : LoadContentArtifactRequest) :
    DriverAction (Option ContentArtifact) := do
  let driver ← get
  let _ ← attempt (findImage driver request.application)
  let artifact := driver.artifacts[(⟨request.application, request.id⟩ : ArtifactKey)]?
  attempt (forSome artifact (validateContentArtifact sha256))
  pure artifact

def validateApplicationTransfer (transfer : ApplicationTransfer) : Outcome Unit := do
  forM transfer.restoreImage.lists.toList fun entry => validateList entry.1 entry.2
  validateOutbox sha256 transfer.restoreImage.outbox
  validateContentArtifactManifest transfer.restoreImage.contentArtifactManifest
  validateContentArtifactMap sha256 transfer.contentArtifacts
  let reachable := transfer.restoreImage.contentArtifactManifest.reachableArtifactIds
  let supplied : BTreeSet ContentArtifactId := .ofList transfer.contentArtifacts.keys compare
  let missing := (reachable.toList.filter fun id => !supplied.contains id).length
  let extra := (supplied.toList.filter fun id => !reachable.contains id).length
  invalidContentArtifact (reachable ≠ supplied)
    (s!"application transfer artifact closure has {missing} missing and {extra} extra " ++
      "artifacts")

def exportApplication (request : ExportApplicationRequest) :
    DriverAction ApplicationTransfer := do
  let driver ← get
  let restoreImage ← attempt (findImage driver request.application)
  let contentArtifacts ← attempt (exactContentArtifactClosure sha256
    restoreImage.contentArtifactManifest (driver.applicationArtifacts request.application))
  attempt (validateApplicationTransfer sha256 ⟨restoreImage, contentArtifacts⟩)
  pure ⟨restoreImage, contentArtifacts⟩

def barrier (request : BarrierRequest) : DriverAction BarrierAck := do
  let driver ← get
  let image ← attempt (findImage driver request.application)
  attempt (reject (image.epoch < request.throughEpoch) .staleEpoch)
  pure ⟨image.epoch⟩

def inspect (request : InspectRequest) :
    DriverAction (Option PersistenceInspectorSnapshot) := do
  let driver ← get
  match driver.applications[request.application]? with
  | some image => do
    let stats ← attempt (validateContentArtifactStorage sha256 image.contentArtifactManifest
      (driver.applicationArtifacts request.application))
    pure (some (inspectorSnapshotWithArtifacts image stats))
  | none => pure none

def compact (request : CompactRequest) : DriverAction CompactAck := do
  let driver ← get
  let image ← attempt (findImage driver request.application)
  let retained ← attempt (exactContentArtifactClosure sha256 image.contentArtifactManifest
    (driver.applicationArtifacts request.application))
  set (driver.replaceApplicationArtifacts request.application retained)
  pure ⟨image.epoch⟩

def shutdown : DriverAction Unit := do
  let driver ← get
  set { driver with closed := true }
  pure ()

/-- Wraps the outcome of a method into a result. -/
def answer {α : Type} (wrap : Outcome α → PersistenceResult) (method : DriverAction α)
    (driver : InMemoryDriver) : PersistenceResult × InMemoryDriver :=
  ((method.exec driver).map wrap id)

def execute (driver : InMemoryDriver) (command : PersistenceCommand) :
    PersistenceResult × InMemoryDriver :=
  if driver.closed && !command.isShutdown then (errorResult command .closed, driver)
  else match command with
  | .load request => answer .loaded (load sha256 request) driver
  | .initializeImage image => answer .initialized (initializeImage sha256 image) driver
  | .commit batch => answer .committed (commit sha256 batch) driver
  | .activate batch => answer .activated (activate sha256 batch) driver
  | .resetApplication batch => answer .applicationReset (resetApplication sha256 batch) driver
  | .barrier request => answer .barrierComplete (barrier request) driver
  | .inspect request => answer .inspected (inspect sha256 request) driver
  | .compact request => answer .compacted (compact sha256 request) driver
  | .exportApplication request =>
    answer .applicationExported (exportApplication sha256 request) driver
  | .putContentArtifact request =>
    answer .contentArtifactStored (putContentArtifact sha256 request) driver
  | .loadContentArtifact request =>
    answer .contentArtifactLoaded (loadContentArtifact sha256 request) driver
  | .shutdown => answer .shutdownComplete shutdown driver

end Methods

end InMemoryDriver

end BoonCircuit.Persistence
