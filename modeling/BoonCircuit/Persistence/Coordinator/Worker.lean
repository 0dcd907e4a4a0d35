import BoonCircuit.Persistence.Coordinator.Admission

/-!
# The persistence worker

One thread owns the driver.  It collects turns into batches, commits them and answers
control requests.  Its program is cut at the points where callers can take the
admission lock: a phase says where the worker stands between two such points.
-/

namespace BoonCircuit.Persistence.Coordinator

open Data Lib Checks

structure DurableCursor where
  application : ApplicationIdentity
  schemaHash : Digest
  epoch : UInt64
  throughTurnSequence : UInt64

def DurableCursor.fromImage (image : RestoreImage) : DurableCursor where
  application := image.application
  schemaHash := image.schemaHash
  epoch := image.epoch
  throughTurnSequence := image.throughTurnSequence

/-- Addition of one that fails at the largest word. -/
def checkedSucc (value : UInt64) : Option UInt64 :=
  if value = 0xFFFFFFFFFFFFFFFF then none else some (value + 1)

def nextEpoch (epoch : UInt64) : Outcome UInt64 :=
  okOr (checkedSucc epoch) (.backend "persistence epoch overflow")

section Batch

variable (sha256 : List UInt8 → Digest)

/-- The sealed checkpoint of some turns, the first and the last of which are given. -/
def DurableCursor.checkpoint (durable : DurableCursor) (epoch : UInt64)
    (firstTurnSequence lastTurnSequence : UInt64) (turns : List AuthorityTurn) : CheckpointBatch :=
  CheckpointBatch.seal sha256
    { application := durable.application
      schemaHash := durable.schemaHash
      baseEpoch := durable.epoch
      nextEpoch := epoch
      firstTurnSequence := firstTurnSequence
      lastTurnSequence := lastTurnSequence
      changes := turns.flatMap (·.changes)
      outboxChanges := turns.flatMap (·.outboxChanges)
      contentArtifactChanges := turns.flatMap (·.contentArtifactChanges)
      checksum := Digest.ofByte 0 }

/-- The checkpoint of a single turn. -/
def DurableCursor.immediateCheckpoint (durable : DurableCursor) (epoch : UInt64)
    (turn : AuthorityTurn) : CheckpointBatch :=
  durable.checkpoint sha256 epoch turn.turnSequence turn.turnSequence [turn]

end Batch

/-- The turns continue the durable ones without a gap. -/
def DurableCursor.Continues (durable : DurableCursor) (first : AuthorityTurn)
    (turns : List AuthorityTurn) : Prop :=
  first.turnSequence = saturatingSucc durable.throughTurnSequence ∧
    turns.IsChain fun earlier later => later.turnSequence = saturatingSucc earlier.turnSequence

instance (durable : DurableCursor) (first : AuthorityTurn) (turns : List AuthorityTurn) :
    Decidable (durable.Continues first turns) :=
  inferInstanceAs (Decidable (_ ∧ _))

/-- What the worker does after it has flushed its pending turns. -/
inductive AfterFlush where
  | artifacts (works : List AsyncArtifact)
  | control (request : ControlRequest)
  | stop

inductive WorkerPhase where
  | receiving
  | collecting (works : List AsyncArtifact)
  | flushing (next : AfterFlush)
  /-- A commit is acknowledged and not yet marked durable. -/
  | acknowledged (next : AfterFlush) (batch : CheckpointBatch) (ack : CommitAck)
  | storing (works : List AsyncArtifact)
  | handling (request : ControlRequest)
  | stopping
  | closing
  | returned

structure WorkerState (D : Type) where
  driver : D
  durable : DurableCursor
  pending : List AuthorityTurn
  deferred : Option ControlRequest
  phase : WorkerPhase

namespace ControlRequest

/-- The answer of a request that was not executed. -/
def errorReply (request : ControlRequest) (error : StoreError) : ControlReply :=
  match request with
  | .load => .load (.error error)
  | .barrier => .barrier (.error error)
  | .immediateTurn _ => .immediateTurn (.error error)
  | .inspect => .inspect (.error error)
  | .activate _ => .activate (.error error)
  | .resetApplication _ => .resetApplication (.error error)
  | .compact => .compact (.error error)
  | .exportApplication => .exportApplication (.error error)
  | .putContentArtifact _ => .putContentArtifact (.error error)
  | .loadContentArtifact _ => .loadContentArtifact (.error error)
  | .shutdown => .shutdown (.error error)

end ControlRequest

/-- The error of a driver that answers another command. -/
def wrongResult (command : String) : StoreError :=
  .backend s!"driver returned the wrong result for {command}"

def loadedOutcome : PersistenceResult → Outcome (Option RestoreImage)
  | .loaded outcome => outcome
  | _ => .error (wrongResult "Load")

def barrierOutcome : PersistenceResult → Outcome BarrierAck
  | .barrierComplete outcome => outcome
  | _ => .error (wrongResult "Barrier")

def inspectedOutcome : PersistenceResult → Outcome (Option PersistenceInspectorSnapshot)
  | .inspected outcome => outcome
  | _ => .error (wrongResult "Inspect")

def activatedOutcome : PersistenceResult → Outcome ActivationAck
  | .activated outcome => outcome
  | _ => .error (wrongResult "Activate")

def applicationResetOutcome : PersistenceResult → Outcome ResetApplicationAck
  | .applicationReset outcome => outcome
  | _ => .error (wrongResult "ResetApplication")

def compactedOutcome : PersistenceResult → Outcome CompactAck
  | .compacted outcome => outcome
  | _ => .error (wrongResult "Compact")

def applicationExportedOutcome : PersistenceResult → Outcome ApplicationTransfer
  | .applicationExported outcome => outcome
  | _ => .error (wrongResult "ExportApplication")

def contentArtifactStoredOutcome : PersistenceResult → Outcome PutContentArtifactAck
  | .contentArtifactStored outcome => outcome
  | _ => .error (wrongResult "PutContentArtifact")

def contentArtifactLoadedOutcome : PersistenceResult → Outcome (Option ContentArtifact)
  | .contentArtifactLoaded outcome => outcome
  | _ => .error (wrongResult "LoadContentArtifact")

def shutdownOutcome : PersistenceResult → Outcome Unit
  | .shutdownComplete outcome => outcome
  | _ => .error (wrongResult "Shutdown")

section Program

variable (sha256 : List UInt8 → Digest)
variable {D : Type} (execute : D → PersistenceCommand → PersistenceResult × D)

variable (worker : WorkerState D)

def handleAsyncArtifact (shared : SharedState) (work : AsyncArtifact) :
    WorkerState D × SharedState :=
  match work with
  | .put ticket artifact =>
    let (answer, driver) := execute worker.driver
      (.putContentArtifact ⟨worker.durable.application, artifact⟩)
    let result := contentArtifactStoredOutcome answer
    let recorded := shared.recordResultError result
    ({ worker with driver := driver },
      { recorded with contentArtifactCompletions :=
          recorded.contentArtifactCompletions ++ [⟨ticket, result⟩] })
  | .load ticket id =>
    let (answer, driver) := execute worker.driver
      (.loadContentArtifact ⟨worker.durable.application, id⟩)
    let result := contentArtifactLoadedOutcome answer
    let recorded := shared.recordResultError result
    ({ worker with driver := driver },
      { recorded with contentArtifactLoadCompletions :=
          recorded.contentArtifactLoadCompletions ++ [⟨ticket, id, result⟩] })

/-- How far a flush gets before the acknowledgement is marked durable. -/
inductive FlushResult where
  | done (outcome : Outcome Unit)
  | acknowledged (batch : CheckpointBatch) (ack : CommitAck)

/-- `flush_pending` up to the acknowledgement of the driver. -/
def flushPending (shared : SharedState) : FlushResult × D × SharedState :=
  match worker.pending.head?, worker.pending.getLast? with
  | some first, some last =>
    if ¬ worker.durable.Continues first worker.pending then
      (.done (.error .nonContiguousTurn), worker.driver,
        shared.recordStoreError .nonContiguousTurn)
    else
      match nextEpoch worker.durable.epoch with
      | .error error => (.done (.error error), worker.driver, shared)
      | .ok epoch =>
        let batch := worker.durable.checkpoint sha256 epoch first.turnSequence
          last.turnSequence worker.pending
        match execute worker.driver (.commit batch) with
        | (.committed (.ok ack), driver) =>
          if ack.epoch ≠ epoch ∨ ack.throughTurnSequence ≠ last.turnSequence then
            let error := StoreError.backend
              "driver returned an inconsistent checkpoint acknowledgement"
            (.done (.error error), driver, shared.recordStoreError error)
          else (.acknowledged batch ack, driver, shared)
        | (.committed (.error error), driver) =>
          (.done (.error error), driver, shared.recordStoreError error)
        | (_, driver) =>
          (.done (.error (wrongResult "Commit")), driver,
            shared.recordStoreError (wrongResult "Commit"))
  | _, _ => (.done (.ok ()), worker.driver, shared)

def commitImmediateTurn (shared : SharedState) (turn : AuthorityTurn) :
    Outcome CommitAck × WorkerState D × SharedState :=
  match checkedSucc worker.durable.throughTurnSequence with
  | none => (.error (.backend "persistence turn sequence overflow"), worker, shared)
  | some expected =>
    if turn.turnSequence ≠ expected then (.error .nonContiguousTurn, worker, shared)
    else
      match nextEpoch worker.durable.epoch with
      | .error error => (.error error, worker, shared)
      | .ok epoch =>
        match execute worker.driver
          (.commit (worker.durable.immediateCheckpoint sha256 epoch turn)) with
        | (.committed (.ok ack), driver) =>
          if ack.epoch ≠ epoch ∨ ack.throughTurnSequence ≠ turn.turnSequence then
            (.error (.backend
              "driver returned an inconsistent immediate checkpoint acknowledgement"),
              { worker with driver := driver }, shared)
          else
            (.ok ack,
              { worker with
                driver := driver
                durable := { worker.durable with
                  epoch := ack.epoch
                  throughTurnSequence := ack.throughTurnSequence } },
              shared.markActivation ack.epoch ack.throughTurnSequence)
        | (.committed (.error error), driver) =>
          (.error error, { worker with driver := driver }, shared)
        | (_, driver) =>
          (.error (wrongResult "immediate Commit"), { worker with driver := driver }, shared)

/-- The worker and the shared state after an acknowledged change of schema. -/
def adoptSchema (shared : SharedState) (epoch : UInt64)
    (schemaHash : Digest) (throughTurnSequence : UInt64) : WorkerState D × SharedState :=
  ({ worker with
      durable := { worker.durable with
        epoch := epoch
        schemaHash := schemaHash
        throughTurnSequence := throughTurnSequence } },
    shared.markActivation epoch throughTurnSequence)

/-- Executes a command that only the driver has to do with. -/
def forward {α : Type} (worker : WorkerState D) (shared : SharedState)
    (command : PersistenceCommand) (outcome : PersistenceResult → Outcome α)
    (reply : Outcome α → ControlReply) : ControlReply × WorkerState D × SharedState :=
  let (answer, driver) := execute worker.driver command
  (reply (outcome answer), { worker with driver := driver },
    shared.recordResultError (outcome answer))

/-- `handle_control` after its flush has succeeded. -/
def handleControl (shared : SharedState) :
    ControlRequest → ControlReply × WorkerState D × SharedState
  | .load =>
    forward execute worker shared
      (.load ⟨worker.durable.application, some worker.durable.schemaHash⟩) loadedOutcome .load
  | .barrier =>
    forward execute worker shared
      (.barrier ⟨worker.durable.application, worker.durable.epoch⟩) barrierOutcome .barrier
  | .immediateTurn turn =>
    let (result, worker, shared) := commitImmediateTurn sha256 execute worker shared turn
    (.immediateTurn result, worker, shared.recordResultError result)
  | .inspect =>
    forward execute worker shared (.inspect ⟨worker.durable.application⟩) inspectedOutcome
      .inspect
  | .activate batch =>
    let (answer, driver) := execute worker.driver (.activate batch)
    let worker := { worker with driver := driver }
    match activatedOutcome answer with
    | .ok ack =>
      (.activate (.ok ack),
        adoptSchema worker shared ack.epoch ack.schemaHash ack.throughTurnSequence)
    | .error error => (.activate (.error error), worker, shared.recordStoreError error)
  | .resetApplication batch =>
    let (answer, driver) := execute worker.driver (.resetApplication batch)
    let worker := { worker with driver := driver }
    match applicationResetOutcome answer with
    | .ok ack =>
      (.resetApplication (.ok ack),
        adoptSchema worker shared ack.epoch ack.schemaHash ack.throughTurnSequence)
    | .error error => (.resetApplication (.error error), worker, shared.recordStoreError error)
  | .compact =>
    forward execute worker shared (.compact ⟨worker.durable.application⟩) compactedOutcome
      .compact
  | .exportApplication =>
    forward execute worker shared (.exportApplication ⟨worker.durable.application⟩)
      applicationExportedOutcome .exportApplication
  | .putContentArtifact artifact =>
    forward execute worker shared
      (.putContentArtifact ⟨worker.durable.application, artifact⟩)
      contentArtifactStoredOutcome .putContentArtifact
  | .loadContentArtifact id =>
    forward execute worker shared (.loadContentArtifact ⟨worker.durable.application, id⟩)
      contentArtifactLoadedOutcome .loadContentArtifact
  | .shutdown => forward execute worker shared .shutdown shutdownOutcome .shutdown

end Program

end BoonCircuit.Persistence.Coordinator
