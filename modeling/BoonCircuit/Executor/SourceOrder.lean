import BoonCircuit.Executor.ListOrder

/-!
# Source order of a list

Every row of a list has a place in its order and a token that sorts like the
place.  A change of order is prepared as a patch with the values on both sides,
committed, and taken back by the same patch.  The rows of one owner also form a
partition, which is indexed by what its rows were materialized from.
-/

namespace BoonCircuit.Executor

open Lib Checks

namespace ListState

variable {V : Type}

/-- Distance between the tokens of appended rows. -/
def orderTokenStride : Nat :=
  2 ^ 64

def initialRelabelRows : Nat :=
  16

def maxRelabelRows : Nat :=
  256

/-- A sum of 128-bit numbers, unless it overflows. -/
def checkedToken (token : Nat) (detail : String) : Except Error Nat :=
  okOr (if token < 2 ^ 128 then some token else none) (.evaluation detail)

variable (list : ListState V)

/-- The token a row has once the staged changes are made. -/
def stagedOrderToken (changes : BTreeMap RowId (Option Nat)) (row : RowId) : Option Nat :=
  changes[row]?.join.or list.orderTokens[row]?

/-- The token before a position, zero at the front. -/
def tokenBefore (order : List RowId) (changes : BTreeMap RowId (Option Nat))
    (position : Nat) : Nat :=
  match position with
  | 0 => 0
  | position + 1 => (order[position]?.bind (list.stagedOrderToken changes)).getD 0

/-- Spreads the tokens of a window around the insertion evenly.  The window doubles from 16
rows to at most 256, so the fuel covers every round. -/
def prepareBoundedRelabel (list : ListState V) (order : List RowId) (index : Nat)
    (changes : BTreeMap RowId (Option Nat)) (nextOrderToken : Nat) :
    (fuel window : Nat) → Except Error (Nat × BTreeMap RowId (Option Nat))
  | 0, _ => .error exhausted
  | fuel + 1, window => do
    let maximum := min maxRelabelRows order.length
    let stop := min (index - window / 2 + window) order.length
    let start := stop - window
    reject (index < start ∨ stop < index)
      (.invalidPlan "source-order relabel window does not contain insertion")
    let lower := list.tokenBefore order changes start
    let upper ← (match order[stop]? with
      | some row => okOr (list.stagedOrderToken changes row)
          (Error.invalidPlan "list order token is missing")
      | none => .ok nextOrderToken)
    reject (upper < lower) (.invalidPlan "source-order relabel boundaries are reversed")
    let step := (upper - lower) / (stop - start + 2)
    if 1 ≤ step then
      let moved := ((order.drop start).take (stop - start)).zipIdx
      let changes ← moved.foldlM (fun changes entry => do
        let ordinal := if start + entry.2 < index then entry.2 + 1 else entry.2 + 2
        let token ← checkedToken (lower + step * ordinal)
          "source-order relabel arithmetic overflow"
        pure (changes.insert entry.1 (some token))) changes
      let token ← checkedToken (lower + step * (index - start + 1))
        "source-order insertion label overflow"
      pure (token, changes)
    else if maximum ≤ window then
      .error exhausted
    else
      prepareBoundedRelabel list order index changes nextOrderToken fuel
        (min (window * 2) maximum)
where
  exhausted : Error := .evaluation
    "source-order insertion has no label space inside the bounded 256-row maintenance window"

/-- The token of a row that is inserted at a position of a prepared order. -/
def orderTokenForPreparedInsertion (order : List RowId) (index : Nat)
    (changes : BTreeMap RowId (Option Nat)) (nextOrderToken : Nat) :
    Except Error (Nat × BTreeMap RowId (Option Nat) × Nat) := do
  let lower := list.tokenBefore order changes index
  if index = order.length then
    let minimum ← checkedToken (lower + orderTokenStride)
      "list source-order token space is exhausted"
    let token := max nextOrderToken minimum
    let nextOrderToken ← checkedToken (token + orderTokenStride)
      "list source-order token space is exhausted"
    pure (token, changes, nextOrderToken)
  else
    let upper ← okOr (order[index]?.bind (list.stagedOrderToken changes))
      (Error.invalidPlan "list order token is missing")
    reject (upper < lower) (.invalidPlan "list source-order labels are not increasing")
    if 1 < upper - lower then
      pure (lower + (upper - lower) / 2, changes, nextOrderToken)
    else
      let maximum := min maxRelabelRows order.length
      let relabeled ← list.prepareBoundedRelabel order index changes nextOrderToken 8
        (min initialRelabelRows (max maximum 1))
      pure (relabeled.1, relabeled.2, nextOrderToken)

def preparedSourceOrder (order : ListOrderPatch)
    (tokenAfter : BTreeMap RowId (Option Nat)) (afterNextOrderToken : Nat) : SourceOrderPatch where
  order := order
  tokens := stage list.orderTokens tokenAfter
  beforeNextOrderToken := list.nextOrderToken
  afterNextOrderToken := afterNextOrderToken

def preparePushOrdered (row : RowId) : Except Error SourceOrderPatch := do
  reject (row ∈ list.order.rows ∨ row ∈ list.orderTokens)
    (.invalidPlan ("list source order repeats row " ++ row.text))
  let token := max list.nextOrderToken orderTokenStride
  let nextOrderToken ← checkedToken (token + orderTokenStride)
    "list source-order token space is exhausted"
  let draft ← list.order.draft.push row
  let order ← list.order.finish draft
  pure (list.preparedSourceOrder order ((∅ : BTreeMap RowId (Option Nat)).insert row (some token))
    nextOrderToken)

def prepareRemoveOrdered (row : RowId) : Except Error (Option SourceOrderPatch) := do
  match list.order.draft.remove row with
  | some draft =>
    let order ← list.order.finish draft
    pure (some (list.preparedSourceOrder order ((∅ : BTreeMap RowId (Option Nat)).insert row none)
      list.nextOrderToken))
  | none => pure none

/-- Takes a row out of a prepared order. -/
def takeOutRow (removed : ListOrderDraft × BTreeMap RowId (Option Nat)) (row : RowId) :
    Except Error (ListOrderDraft × BTreeMap RowId (Option Nat)) := do
  let draft ← okOr (removed.1.remove row) (.invalidPlan
    ("materialized row " ++ row.text ++ " disappeared from source order"))
  pure (draft, removed.2.insert row none)

/-- Puts a row into a prepared order at its offset from the insertion. -/
def putRowBack (insertionIndex : Nat)
    (inserted : ListOrderDraft × BTreeMap RowId (Option Nat) × Nat) (entry : RowId × Nat) :
    Except Error (ListOrderDraft × BTreeMap RowId (Option Nat) × Nat) := do
  let labelled ← list.orderTokenForPreparedInsertion inserted.1.rows (insertionIndex + entry.2)
    inserted.2.1 inserted.2.2
  let draft ← inserted.1.insert (insertionIndex + entry.2) entry.1
  pure (draft, labelled.2.1.insert entry.1 (some labelled.1), labelled.2.2)

/-- The patch that moves the rows to the insertion index, unless they are there. -/
def prepareMoveRows (insertionIndex : Nat) (orderedRows : List RowId) :
    Except Error (Option SourceOrderPatch) := do
  if (list.order.rows.drop insertionIndex).take orderedRows.length = orderedRows then
    pure none
  else
    let removed ← orderedRows.foldlM takeOutRow (list.order.draft, ∅)
    let inserted ← orderedRows.zipIdx.foldlM (list.putRowBack insertionIndex)
      (removed.1, removed.2, list.nextOrderToken)
    let order ← list.order.finish inserted.1
    pure (some (list.preparedSourceOrder order inserted.2.1 inserted.2.2))

def prepareReorderRows (insertionIndex : Nat) (orderedRows : List RowId) :
    Except Error (Option SourceOrderPatch) := do
  reject (¬orderedRows.Nodup ∨ ∃ row ∈ orderedRows, row ∉ list.rows)
    (.invalidPlan "materialized list partition order contains invalid rows")
  list.prepareMoveRows (min insertionIndex (list.order.rows.length - orderedRows.length))
    orderedRows

end ListState

namespace SourceOrderPatch

variable {V : Type} (patch : SourceOrderPatch)

def matchesBefore (list : ListState V) : Bool :=
  patch.order.matchesBefore list.order && list.nextOrderToken == patch.beforeNextOrderToken &&
    matchesChanges Prod.fst patch.tokens list.orderTokens

def matchesAfter (list : ListState V) : Bool :=
  patch.order.matchesAfter list.order && list.nextOrderToken == patch.afterNextOrderToken &&
    matchesChanges Prod.snd patch.tokens list.orderTokens

/-- Commit of a patch on the list it was prepared for. -/
def applyForward (list : ListState V) : ListState V :=
  { list with
    order := patch.order.applyForward list.order
    orderTokens := applyChanges Prod.snd patch.tokens list.orderTokens
    nextOrderToken := patch.afterNextOrderToken }

def applyReverseIdempotent (list : ListState V) : Except Error (ListState V) := do
  if patch.matchesBefore list then
    pure list
  else
    reject (¬patch.matchesAfter list) (.invalidPlan
      "source-order rollback no longer matches its prepared authority")
    let order ← patch.order.applyReverseIdempotent list.order
    pure { list with
      order := order
      orderTokens := applyChanges Prod.fst patch.tokens list.orderTokens
      nextOrderToken := patch.beforeNextOrderToken }

end SourceOrderPatch

namespace ListState

variable {V : Type}

/-- The partition that a row belongs to. -/
def ownerPrefix (row : Row V) : Ancestry :=
  row.ownerAncestry.dropLast

def emptyPartition : OwnerPartition :=
  ⟨[], ∅⟩

variable (list : ListState V)

/-- The partition of an owner, an empty one if there is none. -/
def partitionOf (owner : Ancestry) : OwnerPartition :=
  (list.ownerPartitions[owner]?).getD emptyPartition

/-- Adds a row at the end of its partition. -/
def indexOwnerPartitionRow (rowId : RowId) : Except Error Unit × ListState V :=
  match list.rows[rowId]? with
  | none => (.error (.invalidPlan ("list " ++ toString rowId.list ++ " order contains missing row "
      ++ toString rowId.key ++ ":" ++ toString rowId.generation)), list)
  | some row =>
    match row.ownerAncestry.getLast? with
    | none => (.error (.invalidPlan
        ("row " ++ rowId.text ++ " has empty structural ownership")), list)
    | some leaf =>
      if leaf ≠ rowId then
        (.error (.invalidPlan
          ("row " ++ rowId.text ++ " structural owner has a different leaf")), list)
      else
        let partition := list.partitionOf (ownerPrefix row)
        let partition := { partition with order := partition.order ++ [rowId] }
        match row.materializationOrigin with
        | none =>
          (.ok (), { list with
            ownerPartitions := list.ownerPartitions.insert (ownerPrefix row) partition })
        | some origin =>
          -- The entry is replaced before the repetition is reported.
          let indexed := { partition with
            byMaterializationOrigin :=
              partition.byMaterializationOrigin.insert origin rowId }
          (reject (origin ∈ partition.byMaterializationOrigin) (.invalidPlan
            ("list " ++ toString rowId.list ++
              " owner partition repeats a materialization origin")),
            { list with
              ownerPartitions := list.ownerPartitions.insert (ownerPrefix row) indexed })

def removeOwnerPartitionRow (rowId : RowId) (row : Row V) : ListState V :=
  if row.ownerAncestry = [] then
    list
  else
    match list.ownerPartitions[ownerPrefix row]? with
    | none => list
    | some partition =>
      let order := partition.order.filter (· ≠ rowId)
      let byMaterializationOrigin := match row.materializationOrigin with
        | some origin => partition.byMaterializationOrigin.erase origin
        | none => partition.byMaterializationOrigin
      if order = [] then
        { list with ownerPartitions := list.ownerPartitions.erase (ownerPrefix row) }
      else
        { list with
          ownerPartitions := list.ownerPartitions.insert (ownerPrefix row)
            ⟨order, byMaterializationOrigin⟩ }

/-- All partitions of a list from its order. -/
def rebuildOwnerPartitions : Except Error Unit × ListState V :=
  runAll (fun row list => list.indexOwnerPartitionRow row) list.order.rows
    { list with ownerPartitions := ∅ }

/-- A list with an appended row, before the row is filed. -/
def appended (patch : SourceOrderPatch) (nextKey : UInt64) (row : RowId)
    (content : Row V) : ListState V :=
  { patch.applyForward list with
    nextKey := nextKey
    rows := list.rows.insert row content }

/-- A list whose patch gave one owner's rows a new order. -/
def reordered (patch : SourceOrderPatch) (owner : Ancestry)
    (orderedRows : List RowId) : ListState V :=
  { patch.applyForward list with
    ownerPartitions := list.ownerPartitions.modify owner fun partition =>
      { partition with order := orderedRows } }

end ListState

end BoonCircuit.Executor
