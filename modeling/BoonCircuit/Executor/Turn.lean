import BoonCircuit.Executor.Effects

/-!
# Turns and their rollback

What a program does to its machine in one turn is a sequence of mutations.  The
evaluator that chooses them is not part of the model: a turn is any sequence, and
its first failure ends it.  A failed turn is taken back in a fixed order: the logs of
pending calls, the positional undo log from its end, the journaled revisions,
activations and results.  Partitions and source bindings are then rebuilt.
-/

namespace BoonCircuit.Executor

open Lib Checks
open Lib.Action (attempt exec)

variable {V S : Type} [RuntimeValue V]

section Restore

variable {κ ν : Type} [Ord κ] [Std.TransOrd κ]

/-- The set with or without a member. -/
def setMember (set : BTreeSet κ) (member : κ) (present : Bool) : BTreeSet κ :=
  if present then set.insert member else set.erase member

/-- The map with an earlier binding of a key, or without the key. -/
def putOrErase (map : BTreeMap κ ν) (key : κ) (value : Option ν) : BTreeMap κ ν :=
  match value with
  | some value => map.insert key value
  | none => map.erase key

end Restore

/-- A step on the machine alone. -/
abbrev Repair (V S : Type) [RuntimeValue V] (α : Type) : Type :=
  Action (MachineInstance V S) Error α

def rollbackList (list : ListId) : Repair V S (ListState V) := do
  let machine ← get
  attempt (okOr machine.lists[list]?
    (.evaluation ("rollback list " ++ toString list ++ " is missing")))

def putList (list : ListId) (state : ListState V) : Repair V S Unit :=
  modify fun machine => { machine with lists := machine.lists.insert list state }

/-- Takes one logged mutation back. -/
def undoAuthority : AuthorityUndo V → Repair V S Unit
  | .rootState state value touched =>
    modify fun machine => { machine with
      rootStates := putOrErase machine.rootStates state value
      touchedRootStates := setMember machine.touchedRootStates state touched }
  | .rowField row field value touchedField touchedList => do
    let machine ← get
    let _ ← attempt (okOr (machine.row? row)
      (.evaluation ("rollback cannot find row " ++ row.text)))
    modify fun machine => { machine.modifyRow row fun state =>
          { state with fields := putOrErase state.fields field value } with
      touchedRowFields := setMember machine.touchedRowFields ⟨row, field⟩ touchedField
      touchedLists := setMember machine.touchedLists row.list touchedList }
  | .appendRow row previousNextKey sourceOrder touchedList => do
    let list ← rollbackList row.list
    let emptied := match list.rows[row]? with
      | some removed =>
        { list with rows := list.rows.erase row }.removeOwnerPartitionRow row removed
      | none => list
    putList row.list emptied
    let restored ← attempt (sourceOrder.applyReverseIdempotent emptied)
    putList row.list { restored with nextKey := previousNextKey }
    modify fun machine => { machine with
      touchedRowFields := machine.touchedRowFields.filter fun entry => entry.row ≠ row
      touchedLists := setMember machine.touchedLists row.list touchedList }
  | .removeRow row value sourceOrder previousNextKey touchedList touchedFields => do
    let list ← rollbackList row.list
    let restored ← attempt (sourceOrder.applyReverseIdempotent list)
    let indexed := if row ∈ restored.rows then (.ok (), restored)
      else { restored with rows := restored.rows.insert row value }.indexOwnerPartitionRow row
    putList row.list indexed.2
    attempt indexed.1
    putList row.list { indexed.2 with nextKey := previousNextKey }
    modify fun machine => { machine with
      touchedRowFields := touchedFields.foldl (fun touched field => touched.insert ⟨row, field⟩)
        (machine.touchedRowFields.filter fun entry => entry.row ≠ row)
      touchedLists := setMember machine.touchedLists row.list touchedList }
  | .reorderRows list undo ownerPartition => do
    let machine ← get
    let state ← attempt (okOr machine.lists[list]?
      (.evaluation ("rollback reordered list " ++ toString list ++ " is missing")))
    let restored ← attempt (undo.applyReverseIdempotent state)
    putList list restored
    match ownerPartition with
    | none => pure ()
    | some (ownerPrefix, previousOrder) =>
      let partition ← attempt (okOr restored.ownerPartitions[ownerPrefix]?
        (.invalidPlan "rollback materialized owner partition is missing"))
      putList list { restored with
        ownerPartitions := restored.ownerPartitions.insert ownerPrefix
          { partition with order := previousOrder } }
  | .collection address previous =>
    modify fun machine => { machine with
      collectionAuthorities := putOrErase machine.collectionAuthorities address previous }
  | .collectionProducer site previous =>
    modify fun machine => { machine with
      collectionProducers := putOrErase machine.collectionProducers site previous }

/-- Calls committed in the turn go, completed calls come back, and then updated calls take
their earlier state.  Each log is read from its front. -/
def restorePending (work : Work V S)
    (pending : BTreeMap TransientEffectCallId (PendingTransientEffect S)) :
    BTreeMap TransientEffectCallId (PendingTransientEffect S) :=
  let pending := work.committedTransientEffects.foldl (·.erase ·) pending
  let pending := work.completedTransientEffects.foldl (fun pending call =>
    pending.insert call.1 call.2) pending
  work.updatedTransientEffects.foldl (fun pending call => pending.insert call.1 call.2) pending

def initializeRootSourceBindings (plan : Plan V S) : Step V S Unit := do
  modifyMachine fun machine => { machine with rootSourceBindings := ∅ }
  plan.rootSources.forM fun source => do
    let session ← get
    let epoch := session.machine.nextBindingId
    let next ← attempt (checkedSucc epoch (.evaluation "source binding epoch overflow"))
    modifyMachine fun machine => { machine with
      rootSourceBindings := machine.rootSourceBindings.insert source epoch
      nextBindingId := next }

/-- The rows of all lists, list by list in their order. -/
def MachineInstance.orderedRows (machine : MachineInstance V S) : List RowId :=
  machine.lists.toList.flatMap fun list => list.2.order.rows

def rebuildListPartitions (listId : ListId) : Step V S Unit := do
  let list ← listOf listId (.evaluation ("rollback list " ++ toString listId ++ " is missing"))
  let rebuilt := list.rebuildOwnerPartitions
  modifyMachine fun machine => { machine with lists := machine.lists.insert listId rebuilt.2 }
  attempt rebuilt.1

def rebuildRuntimeStateAfterRollback (plan : Plan V S) : Step V S Unit := do
  let session ← get
  session.machine.lists.keys.forM rebuildListPartitions
  modifyMachine fun machine => { machine with nextBindingId := 1 }
  initializeRootSourceBindings plan
  let session ← get
  let rows := session.machine.orderedRows
  consume (UInt64.ofNat (min rows.length (2 ^ 64 - 1)))
  modifyMachine fun machine => rows.foldl (fun machine row =>
    machine.modifyRow row fun state => { state with bindings := ∅ }) machine
  rows.forM fun row =>
    bindRowSources plan row ((plan.listSlot? row.list).bind ListStorageSlot.scopeId)

/-- Lists whose revision changed in the turn get their earlier revision back. -/
def restoreListRevisions (journal : List (ListId × UInt64)) : Step V S Unit :=
  journal.forM fun entry => do
    let _ ← listOf entry.1 (.evaluation
      ("rollback cannot restore revision for missing list " ++ toString entry.1))
    modifyMachine fun machine =>
      machine.modifyList entry.1 fun list => { list with revision := entry.2 }

/-- Activations of rows that do not exist are dropped. -/
def rebuildActiveEffectDependencies : Step V S Unit :=
  modifyMachine fun machine => { machine with
    effectActivations := machine.effectActivations.filter fun consumer _ =>
      consumer.row.all fun row => (machine.row? row).isSome }

/-- The work of a turn without its logs. -/
def Work.cleared (work : Work V S) : Work V S :=
  { work with
    emit := false
    authorityDeltas := []
    transientEffects := []
    committedTransientEffects := []
    completedTransientEffects := []
    updatedTransientEffects := []
    authorityUndo := []
    undoRootStates := ∅
    undoRowFields := ∅
    undoCollectionAuthorities := ∅
    undoCollectionProducers := ∅
    pendingCollectionOperations := []
    listRevisionUndo := ∅
    effectActivationUndo := ∅
    transientEffectResultUndo := ∅ }

/-- The logs of pending calls, and then the positional log. -/
def replayUndo : Step V S Unit := do
  modify fun session => { session with machine := { session.machine with
    pendingTransientEffects :=
      restorePending session.work session.machine.pendingTransientEffects } }
  let session ← get
  let undone := replay (fun entry => exec (undoAuthority entry)) session.work.authorityUndo
    session.machine
  modifyMachine fun _ => undone.2
  attempt undone.1

def restoreEffects (activations : BTreeMap EffectConsumer (Option EffectActivation))
    (results : BTreeMap TransientEffectResultKey (Option V)) : Step V S Unit :=
  modifyMachine fun machine => { machine with
    effectActivations := restoreEntries activations.toList machine.effectActivations
    transientEffectResults := restoreEntries results.toList machine.transientEffectResults }

def rollbackTurn (plan : Plan V S) : Step V S Unit := do
  modifyWork fun work => { work with enforceWorkLimit := false }
  replayUndo
  let session ← get
  restoreListRevisions session.work.listRevisionUndo.toList
  restoreEffects session.work.effectActivationUndo session.work.transientEffectResultUndo
  modifyWork Work.cleared
  rebuildRuntimeStateAfterRollback plan
  rebuildActiveEffectDependencies

/-- One primitive mutation, with the values that evaluation gave it. -/
inductive Mutation (V S : Type) [RuntimeValue V] where
  /-- Evaluation fails or runs out of its budget. -/
  | fail (error : Error)
  | writeRootState (state : StateId) (value : V)
  | writeRowField (row : RowId) (field : FieldId) (value : V) (touch : Bool)
  | appendRow (list : ListId) (fields : BTreeMap FieldId V) (ownerPrefix : Ancestry)
      (materializationOrigin : Option Ancestry) (initial : List (FieldId × Except Error V))
      (cost : UInt64)
  | removeRow (row : RowId) (cost : RowId → UInt64)
  | reorderPartition (list : ListId) (insertionIndex : Nat) (orderedRows : List RowId)
      (cost : UInt64)
  | ensureMap (address : CollectionAuthorityAddress V)
  | ensureSet (address : CollectionAuthorityAddress V)
  | mapUpsert (address : CollectionAuthorityAddress V) (key value : V)
  | mapRemove (address : CollectionAuthorityAddress V) (key : V)
  | setAdd (address : CollectionAuthorityAddress V) (item : V)
  | setRemove (address : CollectionAuthorityAddress V) (item : V)
  | retireCollections (root : CollectionAuthorityAddress V)
  | discardUnattached (ownerRows : Ancestry)
  | updateProducer (site : CollectionProducerSite V) (candidate : CollectionProducerCandidate V)
  | stageEffect (request : EffectRequest V)
  | deactivateEffect (consumer : EffectConsumer)
  | setEffectResult (key : TransientEffectResultKey) (value : V)
  | clearEffectResult (key : TransientEffectResultKey)
  | commitEffects
  | updateEffect (callId : TransientEffectCallId) (semantic : S) (nextResultSequence : UInt64)
      (availableCredits : UInt32)
  | completeEffect (callId : TransientEffectCallId)

/-- A partition is given an order for all its rows at once. -/
def ListState.isPartition (list : ListState V) (rows : List RowId) : Bool :=
  (rows.head?.bind (list.rows[·]?)).any fun row =>
    (list.ownerPartitions[ListState.ownerPrefix row]?).any fun partition =>
      partition.order.isPerm rows

namespace Mutation

def apply (plan : Plan V S) : Mutation V S → Step V S Unit
  | .fail error => attempt (.error error)
  | .writeRootState state value => Executor.writeRootState state value
  | .writeRowField row field value touch => Executor.writeRowField row field value touch
  | .appendRow list fields ownerPrefix materializationOrigin initial cost => do
    let _ ← Executor.appendRow plan list fields ownerPrefix materializationOrigin initial cost
  | .removeRow row cost => Executor.removeRow plan row cost
  | .reorderPartition listId insertionIndex orderedRows cost => do
    let list ← listOf listId (.evaluation ("list " ++ toString listId ++ " is missing"))
    attempt (reject (¬list.isPartition orderedRows)
      (.invalidPlan "materialized list partition order contains invalid rows"))
    let _ ← setMaterializedPartitionOrder listId insertionIndex orderedRows cost
  | .ensureMap address => ensureMapAuthority address
  | .ensureSet address => ensureSetAuthority address
  | .mapUpsert address key value => submitMapUpsert plan address key value
  | .mapRemove address key => submitMapRemove address key
  | .setAdd address item => submitSetAdd address item
  | .setRemove address item => submitSetRemove address item
  | .retireCollections root => retireCollectionAuthorityTree root
  | .discardUnattached ownerRows => discardUnattachedCollectionAuthorities ownerRows
  | .updateProducer site candidate => do
    let _ ← updateCollectionProducer site candidate
  | .stageEffect request => stageEffectInvocation request
  | .deactivateEffect consumer => deactivateEffectActivation consumer
  | .setEffectResult key value => setTransientEffectResult key value
  | .clearEffectResult key => clearTransientEffectResult key
  | .commitEffects => commitTransientEffects plan
  | .updateEffect callId semantic nextResultSequence availableCredits => do
    let session ← get
    let previous ← attempt (okOr session.machine.pendingTransientEffects[callId]?
      (.invalidEvent (TransientEffectCallId.report "was cancelled concurrently")))
    updateTransientEffect callId previous { previous with
      semantic := semantic
      nextResultSequence := nextResultSequence
      availableCredits := availableCredits }
  | .completeEffect callId => completeTransientEffect callId "was completed"

/-- The outcome of a sequence of mutations and the session it leaves. -/
def runTurn (plan : Plan V S) (mutations : List (Mutation V S)) (session : Session V S) :
    Except Error Unit × Session V S :=
  runAll (fun mutation => exec (mutation.apply plan)) mutations session

end Mutation

/-- Fresh logs for a turn. -/
def Work.begin (workLimit : Option UInt64) : Work V S where
  emit := true
  authorityDeltas := []
  transientEffects := []
  cancelledTransientEffects := []
  committedTransientEffects := []
  completedTransientEffects := []
  updatedTransientEffects := []
  authorityUndo := []
  undoRootStates := ∅
  undoRowFields := ∅
  undoCollectionAuthorities := ∅
  undoCollectionProducers := ∅
  pendingCollectionOperations := []
  listRevisionUndo := ∅
  effectActivationUndo := ∅
  transientEffectResultUndo := ∅
  workLimit := workLimit
  workUnits := 0
  enforceWorkLimit := true

/-- A machine at the start of a turn. -/
def MachineInstance.beginTurn (machine : MachineInstance V S) (workLimit : Option UInt64) :
    Session V S :=
  ⟨machine, Work.begin workLimit⟩

end BoonCircuit.Executor
