import BoonCircuit.Executor.Collections

/-!
# Mutations of a turn: effects and row removal

Effect activations and results are journaled at their first change in the turn.
Pending effect calls have three logs of their own: calls committed, completed or
cancelled, and updated in the turn.  Removing a row cancels the calls it owns and
retires its collections, after its descendants were removed.
-/

namespace BoonCircuit.Executor

open Lib Checks TransientEffectCallId
open Lib.Action (attempt)

variable {V S : Type} [RuntimeValue V]

def recordEffectActivationUndo (consumer : EffectConsumer) : Step V S Unit :=
  modify fun session => { session with work := { session.work with
    effectActivationUndo := journalize session.work.effectActivationUndo consumer
      session.machine.effectActivations[consumer]? } }

def deactivateEffectActivation (consumer : EffectConsumer) : Step V S Unit := do
  recordEffectActivationUndo consumer
  modifyMachine fun machine => { machine with
    effectActivations := machine.effectActivations.erase consumer }

def recordTransientEffectResultUndo (key : TransientEffectResultKey) : Step V S Unit :=
  modify fun session => { session with work := { session.work with
    transientEffectResultUndo := journalize session.work.transientEffectResultUndo key
      session.machine.transientEffectResults[key]? } }

def setTransientEffectResult (key : TransientEffectResultKey) (value : V) : Step V S Unit := do
  let session ← get
  if session.machine.transientEffectResults[key]? ≠ some value then
    recordTransientEffectResultUndo key
    modifyMachine fun machine => { machine with
      transientEffectResults := machine.transientEffectResults.insert key value }

def clearTransientEffectResult (key : TransientEffectResultKey) : Step V S Unit := do
  let session ← get
  if key ∈ session.machine.transientEffectResults then
    recordTransientEffectResultUndo key
    modifyMachine fun machine => { machine with
      transientEffectResults := machine.transientEffectResults.erase key }

variable (callId : TransientEffectCallId)

/-- Takes a call out of the pending calls, with an entry in the completion log. -/
def completePending (session : Session V S) : Session V S :=
  match session.machine.pendingTransientEffects[callId]? with
  | none => session
  | some previous => {
      machine := { session.machine with
        pendingTransientEffects := session.machine.pendingTransientEffects.erase callId }
      work := { session.work with
        completedTransientEffects :=
          session.work.completedTransientEffects ++ [(callId, previous)] } }

/-- A call that is completed without having delivered. -/
def cancelPending (session : Session V S) : Session V S :=
  if callId ∈ session.machine.pendingTransientEffects then
    let completed := completePending callId session
    { completed with work := { completed.work with
      cancelledTransientEffects := completed.work.cancelledTransientEffects ++ [callId] } }
  else session

def cancelPendingWhere (selected : PendingTransientEffect S → Bool) : Step V S Unit :=
  modify fun session =>
    ((session.machine.pendingTransientEffects.toList.filter fun call => selected call.2).map
      Prod.fst).foldl (fun session callId => cancelPending callId session) session

def cancelPendingTransientEffectOwner (invocationId : EffectInvocationId) (owner : OwnerInstance)
    (executionScope : UInt64) : Step V S Unit :=
  cancelPendingWhere fun pending => pending.invocationId == invocationId &&
    pending.owner == owner && pending.executionScope == executionScope

def cancelPendingTransientEffectsForRow (row : RowId) : Step V S Unit :=
  cancelPendingWhere fun pending => pending.owner.ancestry.contains row

/-- The evaluated request of one update operation. -/
structure EffectRequest (V : Type) where
  consumer : EffectConsumer
  invocationId : EffectInvocationId
  effectId : EffectId
  owner : OwnerInstance
  target : Option RowId
  /-- The intent when the gate is open. -/
  intent : Option V

/-- Activates an update operation.  A closed gate cancels its pending call, an open one
requests a new call under the next sequence number. -/
def stageEffectInvocation (request : EffectRequest V) : Step V S Unit := do
  let session ← get
  let superseded := (session.machine.effectActivations.toList.filter fun entry =>
    entry.1 ≠ request.consumer ∧ entry.2 = ⟨request.invocationId, request.owner⟩).map Prod.fst
  superseded.forM deactivateEffectActivation
  recordEffectActivationUndo request.consumer
  modifyMachine fun machine => { machine with
    effectActivations := machine.effectActivations.insert request.consumer
      ⟨request.invocationId, request.owner⟩ }
  let session ← get
  match request.intent with
  | none =>
    cancelPendingTransientEffectOwner request.invocationId request.owner
      session.machine.transientEffectScope
  | some intent =>
    let callId : TransientEffectCallId :=
      ⟨session.machine.launchEpoch, session.machine.nextTransientEffectSequence⟩
    let next ← attempt (checkedSucc session.machine.nextTransientEffectSequence
      (.evaluation "transient effect sequence exhausted"))
    modifyMachine fun machine => { machine with nextTransientEffectSequence := next }
    consume 1
    modifyWork fun work => { work with transientEffects := work.transientEffects ++
      [⟨callId, request.invocationId, request.effectId, request.owner, request.target, intent⟩] }

/-- The requests that no later request of the same operation and owner replaces. -/
def latestRequests : List (TransientEffectInvocation V) → List (TransientEffectInvocation V)
  | [] => []
  | request :: rest =>
    if rest.any fun later =>
        later.invocationId == request.invocationId && later.owner == request.owner then
      latestRequests rest
    else
      request :: latestRequests rest

/-- The credits a call starts with. -/
def initialCredits : EffectDeliveryCardinality → UInt32
  | .single => 1
  | .stream credits .. => credits

variable (plan : Plan V S)

/-- Turns one request into a pending call.  The call it replaces is cancelled. -/
def commitTransientEffect (request : TransientEffectInvocation V) : Step V S Unit := do
  let session ← get
  cancelPendingTransientEffectOwner request.invocationId request.owner
    session.machine.transientEffectScope
  let contract ← attempt (okOr (plan.effects.find? fun contract =>
      contract.effectId == request.effectId)
    (.invalidPlan (report "has no effect contract")))
  let semantic ← attempt ((plan.semanticForInvocation request.effectId request.intent).mapError
    fun detail => Error.invalidPlan (report
      ("has invalid semantic stream configuration: " ++ detail)))
  let before ← get
  modifyMachine fun machine => { machine with
    pendingTransientEffects := machine.pendingTransientEffects.insert request.callId
      ⟨request.invocationId, request.effectId, request.owner, request.target,
        session.machine.transientEffectScope, contract.delivery, semantic, 0,
        initialCredits contract.delivery⟩ }
  attempt (reject (request.callId ∈ before.machine.pendingTransientEffects)
    (.evaluation (report "was emitted more than once")))
  modifyWork fun work => { work with
    committedTransientEffects := work.committedTransientEffects ++ [request.callId] }

def commitTransientEffects : Step V S Unit := do
  modifyWork fun work => { work with transientEffects := latestRequests work.transientEffects }
  let session ← get
  session.work.transientEffects.forM (commitTransientEffect plan)

/-- Stores the state of a call after a result that does not end it.  The log keeps the state
that the result was checked against. -/
def updateTransientEffect (previous next : PendingTransientEffect S) : Step V S Unit := do
  modifyWork fun work => { work with
    updatedTransientEffects := work.updatedTransientEffects ++ [(callId, previous)] }
  let session ← get
  attempt (reject (callId ∉ session.machine.pendingTransientEffects)
    (.invalidEvent (report "was cancelled concurrently")))
  modifyMachine fun machine => { machine with
    pendingTransientEffects := machine.pendingTransientEffects.insert callId next }

/-- Takes a call that delivered its last result out of the pending calls. -/
def completeTransientEffect (concurrent : String) : Step V S Unit := do
  let session ← get
  attempt (reject (callId ∉ session.machine.pendingTransientEffects)
    (.invalidEvent (report (concurrent ++ " concurrently"))))
  modify (completePending callId)

/-- Reports a removed row: a durable list reports the removal, or the whole list at its first
structural change; other lists report only that durable fields of the row went. -/
def announceRemoval (row : RowId) (nextKey : UInt64)
    (wasStructurallyTouched retiresDurableOverlay : Bool) : Step V S Unit := do
  if plan.durableLists.contains row.list then
    if wasStructurallyTouched then
      pushDelta (.removeRow row nextKey)
    else
      let session ← get
      let authority ← attempt (session.machine.listAuthority plan row.list)
      pushDelta (.replaceList row.list authority)
  else if retiresDurableOverlay then
    pushDelta (.retireRowOverlay row)

/-- Takes a row out of its list. -/
def unlinkRow (row : RowId) (list : ListState V) (removed : Row V)
    (cost : UInt64) : Step V S Unit := do
  let session ← get
  let touchedFields := (session.machine.touchedRowFields.toList.filter fun entry =>
    entry.row == row).map RowField.field
  let durableStructure := plan.durableLists.contains row.list
  let retiresDurableOverlay := !durableStructure &&
    touchedFields.any fun field => plan.durableRowFields row.list field
  let wasStructurallyTouched := session.machine.touchedLists.contains row.list
  let prepared ← attempt (list.prepareRemoveOrdered row)
  let patch ← attempt (okOr prepared
    (.evaluation ("cannot remove missing row " ++ row.text ++ " from source order")))
  consume cost
  markListSemanticChange row.list
  modifyMachine fun machine => { machine with
    lists := machine.lists.modify row.list fun list =>
      { patch.applyForward list with rows := list.rows.erase row }.removeOwnerPartitionRow
        row removed
    touchedLists := if durableStructure then machine.touchedLists.insert row.list
      else machine.touchedLists
    touchedRowFields := machine.touchedRowFields.filter fun entry => entry.row ≠ row }
  pushUndo (.removeRow row removed patch list.nextKey wasStructurallyTouched touchedFields)
  announceRemoval plan row list.nextKey wasStructurallyTouched retiresDurableOverlay

def removeRowExact (row : RowId) (cost : UInt64) : Step V S Unit := do
  let session ← get
  (session.machine.effectActivations.keys.filter fun consumer =>
    consumer.row == some row).forM deactivateEffectActivation
  cancelPendingTransientEffectsForRow row
  let missing := Error.evaluation ("cannot remove missing row " ++ row.text)
  let list ← listOf row.list missing
  let removed ← attempt (okOr list.rows[row]? missing)
  retireCollectionAuthorities fun candidate =>
    removed.ownerAncestry.isPrefixOf candidate.ownerAncestors
  unlinkRow plan row list removed cost

/-- The rows below an owner, deepest first and in order among rows of one depth. -/
def descendants (machine : MachineInstance V S) (row : RowId) (owner : Ancestry) : List RowId :=
  let rows := machine.lists.values.flatMap fun list => list.rows.toList
  let below := rows.filter fun entry =>
    entry.1 ≠ row && owner.isPrefixOf entry.2.ownerAncestry
  (below.insertionSort fun left right =>
    right.2.ownerAncestry.length < left.2.ownerAncestry.length ∨
      (right.2.ownerAncestry.length = left.2.ownerAncestry.length ∧
        (compare left.1 right.1).isLE)).map Prod.fst

/-- Removes a row after the rows below it. -/
def removeRow (row : RowId) (cost : RowId → UInt64) : Step V S Unit := do
  let session ← get
  let found ← attempt (okOr (session.machine.row? row)
    (.invalidPlan ("row " ++ row.text ++ " has no structural owner")))
  (descendants session.machine row found.ownerAncestry).forM fun descendant => do
    let session ← get
    if (session.machine.row? descendant).isSome then
      removeRowExact plan descendant (cost descendant)
  removeRowExact plan row (cost row)

end BoonCircuit.Executor
