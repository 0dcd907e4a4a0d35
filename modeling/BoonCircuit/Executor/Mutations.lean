import BoonCircuit.Executor.SourceOrder

/-!
# Mutations of a turn: roots, rows and lists

Every mutation first notes in the turn's logs how to take it back.  Roots and row
fields are noted at their first write in the turn; structural changes of a list
are noted each time.
-/

namespace BoonCircuit.Executor

open Lib Checks
open Lib.Action (attempt onlyIf)

variable {V S : Type} [RuntimeValue V]

namespace MachineInstance

def row? (machine : MachineInstance V S) (row : RowId) : Option (Row V) :=
  machine.lists[row.list]?.bind (·.rows[row]?)

def modifyList (machine : MachineInstance V S) (list : ListId)
    (change : ListState V → ListState V) : MachineInstance V S :=
  { machine with lists := machine.lists.modify list change }

def modifyRow (machine : MachineInstance V S) (row : RowId) (change : Row V → Row V) :
    MachineInstance V S :=
  machine.modifyList row.list fun list => { list with rows := list.rows.modify row change }

end MachineInstance

def modifyMachine (change : MachineInstance V S → MachineInstance V S) : Step V S Unit :=
  modify fun session => { session with machine := change session.machine }

def modifyWork (change : Work V S → Work V S) : Step V S Unit :=
  modify fun session => { session with work := change session.work }

def pushDelta (delta : AuthorityDelta V) : Step V S Unit :=
  modifyWork fun work => { work with authorityDeltas := work.authorityDeltas ++ [delta] }

def pushUndo (entry : AuthorityUndo V) : Step V S Unit :=
  modifyWork fun work => { work with authorityUndo := work.authorityUndo ++ [entry] }

def listOf (list : ListId) (error : Error) : Step V S (ListState V) := do
  let session ← get
  attempt (okOr session.machine.lists[list]? error)

/-- Charges work units against the budget of the turn. -/
def consume (units : UInt64) : Step V S Unit := do
  let session ← get
  let attempted := saturatingAdd session.work.workUnits units
  attempt (reject (session.work.enforceWorkLimit = true ∧
      session.work.workLimit.any (· < attempted) = true)
    (.workBudgetExceeded (session.work.workLimit.getD 0) attempted))
  modifyWork fun work => { work with workUnits := attempted }

def recordRootUndo (state : StateId) : Step V S Unit :=
  modify fun session =>
    if state ∈ session.work.undoRootStates then session
    else { session with work := { session.work with
      undoRootStates := session.work.undoRootStates.insert state
      authorityUndo := session.work.authorityUndo ++ [.rootState state
        session.machine.rootStates[state]? (session.machine.touchedRootStates.contains state)] } }

def recordRowFieldUndo (row : RowId) (field : FieldId) : Step V S Unit :=
  modify fun session =>
    if ⟨row, field⟩ ∈ session.work.undoRowFields then session
    else { session with work := { session.work with
      undoRowFields := session.work.undoRowFields.insert ⟨row, field⟩
      authorityUndo := session.work.authorityUndo ++ [.rowField row field
        ((session.machine.row? row).bind (·.fields[field]?))
        (session.machine.touchedRowFields.contains ⟨row, field⟩)
        (session.machine.touchedLists.contains row.list)] } }

/-- Gives a list the revision of the turn in progress. -/
def markListSemanticChange (list : ListId) : Step V S Unit := do
  let session ← get
  if session.work.emit then
    let revision ← attempt (checkedSucc session.machine.turnSequence
      (.evaluation "list revision overflow"))
    let state ← listOf list (.evaluation ("cannot revise missing list " ++ toString list))
    modifyWork fun work => { work with
      listRevisionUndo := journalize work.listRevisionUndo list state.revision }
    modifyMachine fun machine =>
      machine.modifyList list fun state => { state with revision := revision }

variable [DecidableEq V]

/-- Stores a root value and tells whether it changed. -/
def setRootState (state : StateId) (value : V) : Step V S Bool := do
  let session ← get
  if session.machine.rootStates[state]? = some (.present value) then
    pure false
  else
    modifyMachine fun machine => { machine with
      rootStates := machine.rootStates.insert state (.present value) }
    pure true

def writeRootState (state : StateId) (value : V) : Step V S Unit := do
  recordRootUndo state
  let session ← get
  let wasTouched := session.machine.touchedRootStates.contains state
  modifyMachine fun machine => { machine with
    touchedRootStates := machine.touchedRootStates.insert state }
  let changed ← setRootState state value
  if changed || !wasTouched then
    pushDelta (.setRoot state value)

/-- Stores a field of a row and tells whether it changed. -/
def setRowField (row : RowId) (field : FieldId) (value : V) : Step V S Bool := do
  let session ← get
  if (session.machine.row? row).bind (·.fields[field]?) = some value then
    pure false
  else
    markListSemanticChange row.list
    let _ ← attempt (okOr (session.machine.row? row) (.evaluation
      ("cannot set field " ++ toString field ++ " on missing row " ++ row.text)))
    modifyMachine fun machine =>
      machine.modifyRow row fun state => { state with fields := state.fields.insert field value }
    pure true

/-- An authority write of a row field.  Program updates also mark the field as touched;
materialization does not. -/
def writeRowField (row : RowId) (field : FieldId) (value : V) (touch : Bool) : Step V S Unit := do
  recordRowFieldUndo row field
  let session ← get
  let wasTouched := session.machine.touchedRowFields.contains ⟨row, field⟩
  onlyIf touch (modifyMachine fun machine => { machine with
    touchedRowFields := machine.touchedRowFields.insert ⟨row, field⟩ })
  let changed ← setRowField row field value
  if touch && (changed || !wasTouched) then
    let found ← attempt (okOr (session.machine.row? row) (.invalidPlan
      ("row " ++ row.text ++ " has no structural owner")))
    pushDelta (.setRowField row found.ownerAncestry found.materializationOrigin field value)

namespace Plan

/-- Sources that are bound at the root, in order. -/
def rootSources (plan : Plan V S) : List SourceId :=
  (plan.routes.toList.filter fun route => !route.2.isScoped).map Prod.fst

/-- Sources that are bound in every row of a scope, in order. -/
def scopedSources (plan : Plan V S) (scope : Option ScopeId) : List SourceId :=
  (plan.routes.toList.filter fun route =>
    route.2.scopeId == scope && route.2.isScoped).map Prod.fst

def listSlot? (plan : Plan V S) (list : ListId) : Option ListStorageSlot :=
  plan.listSlots.find? fun slot => slot.listId == list

/-- The authority fields of a row. -/
def authorityOf (plan : Plan V S) (list : ListId) (row : Row V) : BTreeMap FieldId V :=
  row.fields.filter fun field _ => (plan.authorityFields list).contains field

end Plan

/-- Binds one source in a row under the next epoch. -/
def MachineInstance.bindSource (machine : MachineInstance V S) (row : RowId) (source : SourceId) :
    MachineInstance V S :=
  { machine.modifyRow row fun state =>
      { state with bindings := state.bindings.insert source machine.nextBindingId } with
    nextBindingId := saturatingAdd machine.nextBindingId 1 }

def MachineInstance.bindSources (machine : MachineInstance V S) (row : RowId)
    (sources : List SourceId) : MachineInstance V S :=
  sources.foldl (fun machine source => machine.bindSource row source) machine

def bindRowSources (plan : Plan V S) (row : RowId) (scope : Option ScopeId) :
    Step V S Unit := do
  let session ← get
  let _ ← attempt (okOr (session.machine.row? row)
    (.evaluation ("cannot bind sources to missing row " ++ row.debug)))
  modifyMachine fun machine => machine.bindSources row (plan.scopedSources scope)

/-- The authority of a list as a turn reports it. -/
def MachineInstance.listAuthority (plan : Plan V S) (machine : MachineInstance V S)
    (listId : ListId) : Except Error (ListAuthority V) := do
  let state ← okOr machine.lists[listId]?
    (.evaluation ("authoritative list " ++ toString listId ++ " is missing"))
  let rows ← state.order.rows.mapM fun rowId => do
    let row ← okOr state.rows[rowId]? (Error.evaluation ("list " ++ toString listId ++
      " order contains missing row " ++ toString rowId.key ++ ":" ++ toString rowId.generation))
    let token ← okOr state.orderTokens[rowId]? (Error.invalidPlan ("list " ++ toString listId ++
      " row " ++ toString rowId.key ++ ":" ++ toString rowId.generation ++
      " has no source-order token"))
    pure {
      id := rowId
      sourceOrderToken := token
      ownerAncestors := row.ownerAncestry
      materializationOrigin := row.materializationOrigin
      fields := plan.authorityOf listId row
      touchedFields := Std.ExtTreeSet.ofList ((plan.authorityFields listId).filter fun field =>
        machine.touchedRowFields.contains ⟨rowId, field⟩) }
  pure {
    touched := machine.touchedLists.contains listId
    revision := state.revision
    nextKey := state.nextKey
    nextOrderToken := state.nextOrderToken
    rows := rows }

/-- Reports an appended row of a durable list, or the whole list at its first structural change. -/
def announceAppend (plan : Plan V S) (row : RowId) (wasStructurallyTouched : Bool) :
    Step V S Unit := do
  if wasStructurallyTouched then
    let list ← listOf row.list (.evaluation "appended row disappeared")
    let state ← attempt (okOr list.rows[row]? (.evaluation "appended row disappeared"))
    let token ← attempt (okOr list.orderTokens[row]?
      (.invalidPlan "appended authority row has no source-order token"))
    pushDelta (.insertRow {
      id := row
      sourceOrderToken := token
      ownerAncestors := state.ownerAncestry
      materializationOrigin := state.materializationOrigin
      fields := plan.authorityOf row.list state
      touchedFields := ∅ } (list.order.rows.length - 1) list.nextKey)
  else
    let session ← get
    let authority ← attempt (session.machine.listAuthority plan row.list)
    pushDelta (.replaceList row.list authority)

/-- What follows once an appended row is in its list. -/
def settleAppendedRow (plan : Plan V S) (row : RowId) (scope : Option ScopeId)
    (durableStructure wasStructurallyTouched : Bool)
    (initial : List (FieldId × Except Error V)) : Step V S Unit := do
  markListSemanticChange row.list
  onlyIf durableStructure (modifyMachine fun machine => { machine with
    touchedLists := machine.touchedLists.insert row.list })
  initial.forM fun entry => do
    let value ← attempt entry.2
    let _ ← setRowField row entry.1 value
  onlyIf durableStructure (announceAppend plan row wasStructurallyTouched)
  bindRowSources plan row scope

/-- Appends a row under an owner.  The caller gives the evaluated initial values of the row's
states and what the order maintenance costs. -/
def appendRow (plan : Plan V S) (listId : ListId) (fields : BTreeMap FieldId V)
    (ownerPrefix : Ancestry) (materializationOrigin : Option Ancestry)
    (initial : List (FieldId × Except Error V)) (cost : UInt64) : Step V S RowId := do
  let slot ← attempt (okOr (plan.listSlot? listId)
    (.invalidPlan ("missing list slot " ++ toString listId)))
  let missing := Error.evaluation ("list " ++ toString listId ++ " is missing")
  let list ← listOf listId missing
  attempt (reject (slot.capacity.any (· ≤ list.order.rows.length) = true) (.evaluation
    ("list " ++ toString listId ++ " capacity " ++ toString (slot.capacity.getD 0) ++
      " is exhausted")))
  let row : RowId := ⟨listId, max list.nextKey 1, 1⟩
  let nextKey ← attempt (checkedSucc row.key (.evaluation
    ("list " ++ toString listId ++ " row-key allocator is exhausted")))
  let patch ← attempt (list.preparePushOrdered row)
  consume cost
  let session ← get
  let durableStructure := plan.durableLists.contains listId
  let wasStructurallyTouched := session.machine.touchedLists.contains listId
  let appended := list.appended patch nextKey row
    ⟨ownerPrefix ++ [row], materializationOrigin, fields, ∅⟩
  let indexed := appended.indexOwnerPartitionRow row
  modifyMachine fun machine => { machine with lists := machine.lists.insert listId indexed.2 }
  pushUndo (.appendRow row list.nextKey patch wasStructurallyTouched)
  attempt indexed.1
  settleAppendedRow plan row slot.scopeId durableStructure wasStructurallyTouched initial
  pure row

/-- The owner of the given rows and the order of its partition. -/
def ListState.materializedPartition (list : ListState V) (orderedRows : List RowId) :
    Except Error (Option (Ancestry × List RowId)) :=
  orderedRows.head?.mapM fun first => do
    let row ← okOr list.rows[first]? (Error.invalidPlan "materialized partition row disappeared")
    let partition ← okOr list.ownerPartitions[ListState.ownerPrefix row]?
      (Error.invalidPlan "materialized owner partition is missing")
    pure (ListState.ownerPrefix row, partition.order)

/-- Gives the rows of one owner the order they were materialized in. -/
def setMaterializedPartitionOrder (listId : ListId) (insertionIndex : Nat)
    (orderedRows : List RowId) (cost : UInt64) : Step V S Bool := do
  let list ← listOf listId (.evaluation ("list " ++ toString listId ++ " is missing"))
  let prepared ← attempt (list.prepareReorderRows insertionIndex orderedRows)
  match prepared with
  | none => pure false
  | some patch =>
    let ownerPartition ← attempt (list.materializedPartition orderedRows)
    let session ← get
    onlyIf session.work.emit (do
      let _ ← attempt (checkedSucc session.machine.turnSequence
        (.evaluation "list revision overflow")))
    consume cost
    let reordered := match ownerPartition with
      | none => patch.applyForward list
      | some (ownerPrefix, _) => list.reordered patch ownerPrefix orderedRows
    modifyMachine fun machine => { machine with lists := machine.lists.insert listId reordered }
    pushUndo (.reorderRows listId patch ownerPartition)
    markListSemanticChange listId
    pure true

end BoonCircuit.Executor
