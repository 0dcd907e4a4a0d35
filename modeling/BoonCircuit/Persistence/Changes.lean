import BoonCircuit.Persistence.Validation

/-!
# Applying durable changes to an image

One definition for each of the fifteen change kinds, in the order of the source,
and the loop of `apply_changes`, which validates the collection graph once at the
end.  A failed change discards the whole candidate image, so a change maps an
image to an image or to an error.
-/

namespace BoonCircuit.Persistence

open Data Lib Checks

namespace RestoreImage

/-- Some map instance uses the memory. -/
def hasMapMemory (image : RestoreImage) (memoryId : MemoryId) : Bool :=
  image.maps.keys.any fun collectionId => collectionId.memoryId == memoryId

/-- Some set instance uses the memory. -/
def hasSetMemory (image : RestoreImage) (memoryId : MemoryId) : Bool :=
  image.sets.keys.any fun collectionId => collectionId.memoryId == memoryId

end RestoreImage

def advanceListRevision (memoryId : MemoryId) (list : StoredList) (nextRevision : UInt64) :
    Outcome StoredList := do
  invalidAuthority (nextRevision < list.revision)
    s!"list {memoryId} revision moved backwards from {list.revision} to {nextRevision}"
  pure { list with revision := nextRevision }

def advanceCollectionRevision (collectionId : DurableCollectionId)
    (currentRevision nextRevision : UInt64) (kind : String) : Outcome Unit :=
  invalidAuthority (nextRevision < currentRevision)
    (s!"{kind} {collectionId.memoryId} revision moved backwards from {currentRevision} to " ++
      s!"{nextRevision}")

variable (image : RestoreImage) (memoryId : MemoryId)

def setScalar (value : StoredScalar) : Outcome RestoreImage := do
  invalidAuthority (image.lists.contains memoryId || image.hasMapMemory memoryId ||
      image.hasSetMemory memoryId)
    s!"memory {memoryId} already has a non-scalar authority kind"
  pure { image with scalars := image.scalars.insert memoryId value }

def setList (value : StoredList) : Outcome RestoreImage := do
  validateList memoryId value
  invalidAuthority (image.scalars.contains memoryId || image.hasMapMemory memoryId ||
      image.hasSetMemory memoryId)
    s!"memory {memoryId} already has a non-list authority kind"
  pure { image with lists := image.lists.insert memoryId value }

/-- Rewrites the first row with the given key and generation. -/
def updateRow (key generation : UInt64) (update : StoredRow → StoredRow) :
    List StoredRow → List StoredRow
  | [] => []
  | row :: rows =>
    if row.matches key generation then update row :: rows
    else row :: updateRow key generation update rows

/-- A row with one field overridden. -/
def StoredRow.setField (row : StoredRow) (fieldId : MemoryLeafId) (value : StoredValueShell) :
    StoredRow :=
  { row with
    fields := row.fields.insert fieldId value
    touchedFields := row.touchedFields.insert fieldId }

/-- The list that a first field override of an unmaterialized list starts from. -/
def sparseList (listRevision : UInt64) : StoredList where
  touched := false
  revision := listRevision
  nextKey := 0
  nextOrderToken := 0
  rows := []

/-- The row that a field override adds to an unmaterialized list. -/
def overrideRow (rowKey rowGeneration : UInt64) (owner : DurableOwner)
    (materializationOrigin : Option DurableOwner) : StoredRow where
  key := rowKey
  generation := rowGeneration
  sourceOrderToken := 0
  owner := owner
  materializationOrigin := materializationOrigin
  fields := ∅
  touchedFields := ∅

/-- Overrides one field in the rows of a list. -/
def setFieldInRows (list : StoredList) (rowKey rowGeneration : UInt64)
    (owner : DurableOwner) (materializationOrigin : Option DurableOwner) (fieldId : MemoryLeafId)
    (value : StoredValueShell) : Outcome StoredList :=
  match list.rows.find? fun row => row.matches rowKey rowGeneration with
  | some row => do
    invalidAuthority (row.owner ≠ owner ∨ row.materializationOrigin ≠ materializationOrigin)
      s!"list {memoryId} row {rowKey}:{rowGeneration} changed structural owner"
    validateRowOwner memoryId (row.setField fieldId value)
    pure { list with
      rows := updateRow rowKey rowGeneration (fun row => row.setField fieldId value) list.rows }
  | none => do
    invalidAuthority list.touched s!"list {memoryId} has no row {rowKey}:{rowGeneration}"
    let row :=
      (overrideRow rowKey rowGeneration owner materializationOrigin).setField fieldId value
    validateRowOwner memoryId row
    pure { list with rows := list.rows ++ [row] }

def setRowField (listRevision rowKey rowGeneration : UInt64) (owner : DurableOwner)
    (materializationOrigin : Option DurableOwner) (fieldId : MemoryLeafId)
    (value : StoredValueShell) : Outcome RestoreImage := do
  invalidAuthority (image.scalars.contains memoryId) s!"memory {memoryId} is already a scalar"
  let list ← advanceListRevision memoryId
    (image.lists[memoryId]?.getD (sparseList listRevision)) listRevision
  let list ← setFieldInRows memoryId list rowKey rowGeneration owner materializationOrigin
    fieldId value
  pure { image with lists := image.lists.insert memoryId list }

def insertRow (listRevision index : UInt64)
    (row : StoredRow) (nextKey : UInt64) (nextOrderToken : BitVec 128) :
    Outcome RestoreImage := do
  let list ← okOr image.lists[memoryId]? (.invalidAuthority
    s!"cannot insert into list {memoryId} before its structure is materialized")
  invalidAuthority (list.touched = false) s!"cannot insert into sparse override list {memoryId}"
  invalidAuthority (list.rows.any fun candidate => candidate.matches row.key row.generation)
    s!"list {memoryId} already has row {row.key}:{row.generation}"
  invalidAuthority (list.rows.length < index.toNat)
    (s!"row insertion index {index} exceeds list {memoryId} length " ++ s!"{list.rows.length}")
  let list ← advanceListRevision memoryId
    { list with rows := list.rows.insertIdx index.toNat row } listRevision
  let list := { list with nextKey := nextKey, nextOrderToken := nextOrderToken }
  validateList memoryId list
  pure { image with lists := image.lists.insert memoryId list }

def removeRow (listRevision rowKey rowGeneration nextKey : UInt64) (nextOrderToken : BitVec 128) :
    Outcome RestoreImage := do
  let list ← okOr image.lists[memoryId]?
    (.invalidAuthority s!"cannot remove from missing list {memoryId}")
  invalidAuthority (list.touched = false ∧ (nextKey ≠ 0 ∨ nextOrderToken ≠ 0))
    s!"sparse override removal for list {memoryId} must not replace allocator state"
  let index ← okOr (list.rows.findIdx? fun row => row.matches rowKey rowGeneration)
    (.invalidAuthority s!"list {memoryId} has no row {rowKey}:{rowGeneration}")
  let list ← advanceListRevision memoryId { list with rows := list.rows.eraseIdx index }
    listRevision
  let list := if list.touched then
    { list with nextKey := nextKey, nextOrderToken := nextOrderToken } else list
  validateList memoryId list
  -- An unmaterialized list that overrides nothing any more is dropped.
  if !list.touched && list.rows.isEmpty then
    pure { image with lists := image.lists.erase memoryId }
  else pure { image with lists := image.lists.insert memoryId list }

variable (collectionId : DurableCollectionId)

def setMap (value : StoredMap) : Outcome RestoreImage := do
  validateCollectionId collectionId
  validateMap collectionId value
  invalidAuthority (image.scalars.contains collectionId.memoryId ||
      image.lists.contains collectionId.memoryId || image.hasSetMemory collectionId.memoryId)
    s!"memory {collectionId.memoryId} already has a non-map authority kind"
  pure { image with maps := image.maps.insert collectionId value }

def mapUpsert (revision : UInt64)
    (key : Value) (keyGeneration nextKeyGeneration : UInt64) (value : StoredValueShell) :
    Outcome RestoreImage := do
  validateCollectionId collectionId
  let map ← okOr image.maps[collectionId]?
    (.invalidAuthority s!"cannot upsert into missing map {collectionId.memoryId}")
  advanceCollectionRevision collectionId map.revision revision "map"
  let map : StoredMap := {
    touched := true
    revision := revision
    nextKeyGeneration := nextKeyGeneration
    keyGenerations := map.keyGenerations.insert key keyGeneration
    entries := map.entries.insert key value }
  validateMap collectionId map
  pure { image with maps := image.maps.insert collectionId map }

def mapRemove (revision : UInt64)
    (key : Value) (nextKeyGeneration : UInt64) : Outcome RestoreImage := do
  validateCollectionId collectionId
  let map ← okOr image.maps[collectionId]?
    (.invalidAuthority s!"cannot remove from missing map {collectionId.memoryId}")
  advanceCollectionRevision collectionId map.revision revision "map"
  invalidAuthority (map.entries.contains key = false)
    s!"map {collectionId.memoryId} does not contain the removed key"
  invalidAuthority (map.keyGenerations.contains key = false)
    s!"map {collectionId.memoryId} does not contain a generation for the removed key"
  let map : StoredMap := {
    touched := true
    revision := revision
    nextKeyGeneration := nextKeyGeneration
    keyGenerations := map.keyGenerations.erase key
    entries := map.entries.erase key }
  validateMap collectionId map
  pure { image with maps := image.maps.insert collectionId map }

def setSet (value : StoredSet) : Outcome RestoreImage := do
  validateCollectionId collectionId
  validateSet collectionId value
  invalidAuthority (image.scalars.contains collectionId.memoryId ||
      image.lists.contains collectionId.memoryId || image.hasMapMemory collectionId.memoryId)
    s!"memory {collectionId.memoryId} already has a non-set authority kind"
  pure { image with sets := image.sets.insert collectionId value }

def setAdd (revision : UInt64) (item : Value) : Outcome RestoreImage := do
  validateCollectionId collectionId
  let set ← okOr image.sets[collectionId]?
    (.invalidAuthority s!"cannot add to missing set {collectionId.memoryId}")
  advanceCollectionRevision collectionId set.revision revision "set"
  invalidAuthority (set.items.contains item)
    s!"set {collectionId.memoryId} already contains the added item"
  pure { image with sets := image.sets.insert collectionId ⟨true, revision, set.items.insert item⟩ }

def setRemove (revision : UInt64) (item : Value) : Outcome RestoreImage := do
  validateCollectionId collectionId
  let set ← okOr image.sets[collectionId]?
    (.invalidAuthority s!"cannot remove from missing set {collectionId.memoryId}")
  advanceCollectionRevision collectionId set.revision revision "set"
  invalidAuthority (set.items.contains item = false)
    s!"set {collectionId.memoryId} does not contain the removed item"
  pure { image with sets := image.sets.insert collectionId ⟨true, revision, set.items.erase item⟩ }

def applyChange : DurableChange → Outcome RestoreImage
  | .setScalar memoryId value => setScalar image memoryId value
  | .deleteScalar memoryId => .ok { image with scalars := image.scalars.erase memoryId }
  | .setList memoryId value => setList image memoryId value
  | .setRowField memoryId listRevision rowKey rowGeneration owner materializationOrigin fieldId
      value =>
      setRowField image memoryId listRevision rowKey rowGeneration owner materializationOrigin
        fieldId value
  | .insertRow memoryId listRevision index row nextKey nextOrderToken =>
    insertRow image memoryId listRevision index row nextKey nextOrderToken
  | .removeRow memoryId listRevision rowKey rowGeneration nextKey nextOrderToken =>
    removeRow image memoryId listRevision rowKey rowGeneration nextKey nextOrderToken
  | .deleteList memoryId => .ok { image with lists := image.lists.erase memoryId }
  | .setMap collectionId value => setMap image collectionId value
  | .mapUpsert collectionId revision key keyGeneration nextKeyGeneration value =>
    mapUpsert image collectionId revision key keyGeneration nextKeyGeneration value
  | .mapRemove collectionId revision key nextKeyGeneration =>
    mapRemove image collectionId revision key nextKeyGeneration
  | .deleteMap collectionId => .ok { image with maps := image.maps.erase collectionId }
  | .setSet collectionId value => setSet image collectionId value
  | .setAdd collectionId revision item => setAdd image collectionId revision item
  | .setRemove collectionId revision item => setRemove image collectionId revision item
  | .deleteSet collectionId => .ok { image with sets := image.sets.erase collectionId }

def applyChanges (changes : List DurableChange) : Outcome RestoreImage := do
  let image ← changes.foldlM applyChange image
  validateCollectionAuthorityGraph image
  pure image

end BoonCircuit.Persistence
