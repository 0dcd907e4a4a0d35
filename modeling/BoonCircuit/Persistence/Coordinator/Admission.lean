import BoonCircuit.Lib.Channel
import BoonCircuit.Persistence.InMemoryDriver

/-!
# Admission of authority turns

Callers reserve a slot for one complete turn and move the turn into the bounded
channel of the persistence worker.  Everything here runs under the admission lock,
so each function is one atomic step of the coordinator.
-/

namespace BoonCircuit.Persistence.Coordinator

open Data Lib

/-- A complete authority turn: the unit of admission and recovery. -/
structure AuthorityTurn where
  turnSequence : UInt64
  changes : List DurableChange
  outboxChanges : List DurableOutboxChange
  contentArtifactChanges : List DurableContentArtifactChange
  deriving DecidableEq

structure PersistenceWorkerConfig where
  /-- Maximum number of complete accepted-but-not-durable turns. -/
  queueCapacity : Nat
  /-- Maximum number of complete turns combined into one checkpoint. -/
  maxBatchTurns : Nat
  /-- How long the worker waits for adjacent turns, in ticks of its clock. -/
  coalesceDelay : Nat

/-- Control work, which the callers send one at a time. -/
inductive ControlRequest where
  | load
  | barrier
  | immediateTurn (turn : AuthorityTurn)
  | inspect
  | activate (batch : ActivationBatch)
  | resetApplication (batch : ResetApplicationBatch)
  | compact
  | exportApplication
  | putContentArtifact (artifact : ContentArtifact)
  | loadContentArtifact (id : ContentArtifactId)
  | shutdown

inductive ControlReply where
  | load (outcome : Outcome (Option RestoreImage))
  | barrier (outcome : Outcome BarrierAck)
  | immediateTurn (outcome : Outcome CommitAck)
  | inspect (outcome : Outcome (Option PersistenceInspectorSnapshot))
  | activate (outcome : Outcome ActivationAck)
  | resetApplication (outcome : Outcome ResetApplicationAck)
  | compact (outcome : Outcome CompactAck)
  | exportApplication (outcome : Outcome ApplicationTransfer)
  | putContentArtifact (outcome : Outcome PutContentArtifactAck)
  | loadContentArtifact (outcome : Outcome (Option ContentArtifact))
  | shutdown (outcome : Outcome Unit)

/-- Artifact work that is answered through a completion queue. -/
inductive AsyncArtifact where
  | put (ticket : UInt64) (artifact : ContentArtifact)
  | load (ticket : UInt64) (id : ContentArtifactId)

inductive WorkerMessage where
  | turn (turn : AuthorityTurn)
  | artifact (work : AsyncArtifact)
  | control (request : ControlRequest)

namespace WorkerMessage

def turn? : WorkerMessage → Option AuthorityTurn
  | .turn accepted => some accepted
  | _ => none

def control? : WorkerMessage → Option ControlRequest
  | .control request => some request
  | _ => none

end WorkerMessage

structure AdmissionState where
  accepting : Bool
  closed : Bool
  reservations : Nat
  nextTurnSequence : UInt64
  /-- The sequence numbers of the turns that are accepted and not yet durable. -/
  pending : List UInt64

structure ContentArtifactStoreCompletion where
  ticket : UInt64
  result : Outcome PutContentArtifactAck

structure ContentArtifactLoadCompletion where
  ticket : UInt64
  id : ContentArtifactId
  result : Outcome (Option ContentArtifact)

structure SharedState where
  capacity : Nat
  admission : AdmissionState
  nextContentArtifactTicket : UInt64
  nextContentArtifactLoadTicket : UInt64
  contentArtifactCompletions : List ContentArtifactStoreCompletion
  contentArtifactLoadCompletions : List ContentArtifactLoadCompletion
  durableEpoch : UInt64
  durableTurn : UInt64
  workerAlive : Bool
  lastError : Option StoreError

namespace SharedState

/-- The state before the worker has loaded an image. -/
def new (capacity : Nat) : SharedState where
  capacity := capacity
  admission := ⟨false, false, 0, 1, []⟩
  nextContentArtifactTicket := 1
  nextContentArtifactLoadTicket := 1
  contentArtifactCompletions := []
  contentArtifactLoadCompletions := []
  durableEpoch := 0
  durableTurn := 0
  workerAlive := true
  lastError := none

variable (shared : SharedState)

def finishStartup (image : RestoreImage) : SharedState :=
  { shared with
    durableEpoch := image.epoch
    durableTurn := image.throughTurnSequence
    admission := { shared.admission with
      nextTurnSequence := saturatingSucc image.throughTurnSequence
      accepting := true } }

def recordStoreError (error : StoreError) : SharedState :=
  { shared with lastError := some error }

def recordResultError {α : Type} (shared : SharedState) (result : Outcome α) : SharedState :=
  match result with
  | .ok _ => shared
  | .error error => shared.recordStoreError error

def markDurable (epoch throughTurnSequence : UInt64) : Outcome Unit × SharedState :=
  match shared.admission.pending with
  | [] => (.error (.backend "worker committed a checkpoint with no admitted turns"), shared)
  | first :: _ =>
    let expectedFirst := saturatingSucc shared.durableTurn
    if first ≠ expectedFirst ∨ throughTurnSequence < first then
      (.error (.backend (s!"worker committed invalid pending range {first}..=" ++
        s!"{throughTurnSequence}; expected first {expectedFirst}")), shared)
    else
      -- the pending turns are popped before the remaining ones are looked at
      let remaining := shared.admission.pending.dropWhile (· ≤ throughTurnSequence)
      let popped := { shared with admission := { shared.admission with pending := remaining } }
      if ∃ next ∈ remaining.head?, next ≠ saturatingSucc throughTurnSequence then
        (.error (.backend
          "worker durable acknowledgement split the admitted turn sequence"), popped)
      else
        (.ok (), { popped with durableEpoch := epoch, durableTurn := throughTurnSequence })

def markActivation (epoch throughTurnSequence : UInt64) : SharedState :=
  { shared with
    durableEpoch := epoch
    durableTurn := throughTurnSequence
    admission := { shared.admission with
      nextTurnSequence := saturatingSucc throughTurnSequence } }

def closeAdmission : SharedState :=
  { shared with admission := { shared.admission with closed := true, accepting := false } }

def markWorkerExited : SharedState :=
  closeAdmission { shared with workerAlive := false }

/-- Whether calls are turned away because the worker has gone. -/
def isClosed : Bool :=
  shared.admission.closed || !shared.workerAlive

def releaseReservation : SharedState :=
  { shared with
    admission := { shared.admission with reservations := shared.admission.reservations - 1 } }

end SharedState

inductive TurnReservationError where
  | backpressure (capacity pendingTurns reservedSlots : Nat)
  | controlInProgress
  | closed

inductive TurnEnqueueError where
  | backpressure (turn : AuthorityTurn) (capacity pendingTurns reservedSlots : Nat)
  | nonContiguous (turn : AuthorityTurn) (expectedTurnSequence : UInt64)
  | closed (turn : AuthorityTurn)

namespace SharedState

def tryReserveTurn (shared : SharedState) : Except TurnReservationError SharedState :=
  if shared.isClosed then .error .closed
  else if shared.admission.accepting = false then .error .controlInProgress
  else if shared.capacity ≤ shared.admission.pending.length + shared.admission.reservations then
    .error (.backpressure shared.capacity shared.admission.pending.length
      shared.admission.reservations)
  else
    .ok { shared with
      admission := { shared.admission with reservations := shared.admission.reservations + 1 } }

/-- What an enqueued turn adds to the admission state. -/
def accept (shared : SharedState) (turn : AuthorityTurn) : SharedState :=
  { shared with
    admission := { shared.admission with
      pending := shared.admission.pending ++ [turn.turnSequence]
      nextTurnSequence := saturatingSucc turn.turnSequence } }

/-- `AuthorityTurnReservation::enqueue`, which uses up its reservation in any case. -/
def enqueue (shared : SharedState) (channel : Channel WorkerMessage) (turn : AuthorityTurn) :
    Except TurnEnqueueError Unit × SharedState × Channel WorkerMessage :=
  let released := shared.releaseReservation
  if released.isClosed then (.error (.closed turn), released, channel)
  else if turn.turnSequence ≠ released.admission.nextTurnSequence then
    (.error (.nonContiguous turn released.admission.nextTurnSequence), released, channel)
  else
    match channel.trySend (.turn turn) with
    | .ok sent => (.ok (), released.accept turn, sent)
    | .error .full =>
      (.error (.backpressure turn released.capacity released.admission.pending.length
        released.admission.reservations), released, channel)
    | .error .disconnected => (.error (.closed turn), released.markWorkerExited, channel)

end SharedState

inductive ArtifactEnqueueError where
  | backpressure
  | closed

namespace SharedState

def tryPutContentArtifact (shared : SharedState) (channel : Channel WorkerMessage)
    (artifact : ContentArtifact) :
    Except ArtifactEnqueueError UInt64 × SharedState × Channel WorkerMessage :=
  if shared.isClosed then (.error .closed, shared, channel)
  else
    let ticket := shared.nextContentArtifactTicket
    let issued := { shared with nextContentArtifactTicket := ticket + 1 }
    match channel.trySend (.artifact (.put ticket artifact)) with
    | .ok sent => (.ok ticket, issued, sent)
    | .error .full => (.error .backpressure, issued, channel)
    | .error .disconnected => (.error .closed, issued.markWorkerExited, channel)

def tryLoadContentArtifact (shared : SharedState) (channel : Channel WorkerMessage)
    (id : ContentArtifactId) :
    Except ArtifactEnqueueError UInt64 × SharedState × Channel WorkerMessage :=
  if shared.isClosed then (.error .closed, shared, channel)
  else
    let ticket := shared.nextContentArtifactLoadTicket
    let issued := { shared with nextContentArtifactLoadTicket := ticket + 1 }
    match channel.trySend (.artifact (.load ticket id)) with
    | .ok sent => (.ok ticket, issued, sent)
    | .error .full => (.error .backpressure, issued, channel)
    | .error .disconnected => (.error .closed, issued.markWorkerExited, channel)

end SharedState

end BoonCircuit.Persistence.Coordinator
