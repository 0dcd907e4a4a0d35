import BoonCircuit.Data.Value
import BoonCircuit.Lib.Checks
import BoonCircuit.Lib.Tally
import BoonCircuit.Persistence.Types

/-!
# Validation of stored authorities

The checks that `boon_persistence` runs on owners, rows, lists, maps, sets and shells,
each with the message of its source namesake.  Nested collections are attached to map
entries and row fields through the child references of shells: validation follows
the owner route of every collection and demands one reference for each nested one.
-/

namespace BoonCircuit.Persistence

open Data Lib Checks

/-- The result of a fallible store operation. -/
abbrev Outcome (α : Type) : Type := Except StoreError α

/-- Bound on the depth of owners and shells. -/
def maxDurableOwnerDepth : Nat := 64

/-- A rejected authority. -/
def invalidAuthority (fault : Prop) [Decidable fault] (detail : String) : Outcome Unit :=
  reject fault (.invalidAuthority detail)

theorem invalidAuthority_eq_ok_iff {fault : Prop} [Decidable fault] {detail : String}
    {done : Unit} : invalidAuthority fault detail = .ok done ↔ ¬ fault :=
  reject_eq_ok_iff

/-- One row of an owner: positive generation, not seen before. -/
def scanOwnerRow (seen : List DurableRowId) (row : DurableRowId) :
    Except String (List DurableRowId) := do
  reject (row.rowGeneration = 0) "durable owner contains a zero row generation"
  reject (row ∈ seen) "durable owner repeats a row identity"
  pure (row :: seen)

def validateDurableOwner (owner : DurableOwner) (allowEmpty : Bool) : Except String Unit := do
  reject (owner.ancestors.isEmpty && !allowEmpty) "durable row owner is empty"
  reject (maxDurableOwnerDepth < owner.ancestors.length)
    s!"durable owner depth {owner.ancestors.length} exceeds {maxDurableOwnerDepth}"
  discard (owner.ancestors.foldlM scanOwnerRow [])

/-- Owner validation inside an authority check. -/
def validateAuthorityOwner (owner : DurableOwner) (allowEmpty : Bool) : Outcome Unit :=
  (validateDurableOwner owner allowEmpty).mapError .invalidAuthority

def validateRowOwner (memoryId : MemoryId) (row : StoredRow) : Outcome Unit := do
  invalidAuthority (row.generation = 0) s!"row {row.key} has zero generation"
  validateAuthorityOwner row.owner false
  forSome row.materializationOrigin fun origin => validateAuthorityOwner origin true
  let leaf ← okOr row.owner.ancestors.getLast?
    (.invalidAuthority s!"row {row.key}:{row.generation} has no structural owner")
  invalidAuthority (leaf.listMemoryId ≠ memoryId ∨ leaf.rowKey ≠ row.key ∨
      leaf.rowGeneration ≠ row.generation)
    s!"row {row.key}:{row.generation} structural owner has a different leaf"

def validateCollectionId (collectionId : DurableCollectionId) : Outcome Unit := do
  validateAuthorityOwner collectionId.owner true
  let parents := collectionId.collectionAncestors.map DurableCollectionOwner.parentMemoryId
  invalidAuthority (¬ parents.Nodup ∨ collectionId.memoryId ∈ parents ∨
      collectionId.collectionAncestors.any fun owner =>
        owner.generation == 0 || !owner.key.isKeySafe)
    s!"collection {collectionId.memoryId} has an invalid or cyclic collection-owner route"

/-- Every node of a shell is within the nesting bound. -/
def checkShellDepth (depth : Nat) : Outcome Unit :=
  invalidAuthority (maxDurableOwnerDepth < depth)
    "stored MAP value shell exceeds the authority nesting bound"

mutual

def validateStoredValueShell : StoredValueShell → Nat → Outcome Unit
  | .list values, depth => do
    checkShellDepth depth
    validateShellValues values (depth + 1)
  | .object fields, depth => do
    checkShellDepth depth
    validateShellFields fields (depth + 1)
  | .tag _ fields, depth => do
    checkShellDepth depth
    validateShellFields fields (depth + 1)
  | .childAuthority collectionId, depth => do
    checkShellDepth depth
    validateCollectionId collectionId
  | .number _, depth => checkShellDepth depth
  | .text _, depth => checkShellDepth depth
  | .bytes _, depth => checkShellDepth depth
  | .bits _, depth => checkShellDepth depth

def validateShellValues : List StoredValueShell → Nat → Outcome Unit
  | [], _ => pure ()
  | value :: values, depth => do
    validateStoredValueShell value depth
    validateShellValues values depth

def validateShellFields : List (String × StoredValueShell) → Nat → Outcome Unit
  | [], _ => pure ()
  | (_, value) :: fields, depth => do
    validateStoredValueShell value depth
    validateShellFields fields depth

end

/-- The set of collections a shell refers to. -/
def storedShellChildAuthorities (shell : StoredValueShell) : BTreeSet DurableCollectionId :=
  .ofList shell.references compare

/-- Addition of one that stops at the largest word. -/
def saturatingSucc (value : UInt64) : UInt64 :=
  if value = 0xFFFFFFFFFFFFFFFF then value else value + 1

/-- What `validate_list` carries from row to row. -/
structure ListScan where
  rows : List (UInt64 × UInt64)
  minimumNext : UInt64
  previousOrderToken : BitVec 128

/-- The override rule of one row in a list without materialized structure. -/
def sparseRowFault (row : StoredRow) : Bool :=
  row.touchedFields.isEmpty ||
    (row.fields.keys.any fun field => !row.touchedFields.contains field) ||
    row.sourceOrderToken != 0

/-- Advances the order token of a materialized list. -/
def scanOrderToken (memoryId : MemoryId) (touched : Bool) (previous : BitVec 128)
    (row : StoredRow) : Outcome (BitVec 128) :=
  if touched then do
    invalidAuthority (row.sourceOrderToken = 0 ∨ row.sourceOrderToken ≤ previous)
      (s!"list {memoryId} row {row.key}:{row.generation} has a non-increasing " ++
        "source-order token")
    pure row.sourceOrderToken
  else pure previous

def scanRow (memoryId : MemoryId) (touched : Bool) (scan : ListScan) (row : StoredRow) :
    Outcome ListScan := do
  invalidAuthority ((row.key, row.generation) ∈ scan.rows)
    s!"duplicate row {row.key}:{row.generation}"
  validateRowOwner memoryId row
  forM row.fields.toList fun field => validateStoredValueShell field.2 0
  invalidAuthority (row.touchedFields.toList.any fun field => !row.fields.contains field)
    s!"row {row.key}:{row.generation} touches a missing field"
  invalidAuthority (touched = false ∧ sparseRowFault row)
    s!"sparse row {row.key}:{row.generation} contains non-override fields"
  let previous ← scanOrderToken memoryId touched scan.previousOrderToken row
  pure {
    rows := (row.key, row.generation) :: scan.rows
    minimumNext := max scan.minimumNext (saturatingSucc row.key)
    previousOrderToken := previous }

def validateList (memoryId : MemoryId) (list : StoredList) : Outcome Unit := do
  let scan ← list.rows.foldlM (scanRow memoryId list.touched) ⟨[], 1, 0⟩
  invalidAuthority (list.touched = false ∧ (list.nextKey ≠ 0 ∨ list.nextOrderToken ≠ 0))
    "sparse row overrides must not replace list allocator or ordering state"
  invalidAuthority (list.touched ∧ list.nextKey < scan.minimumNext)
    s!"next key {list.nextKey} is below {scan.minimumNext}"
  invalidAuthority (list.touched ∧ list.nextOrderToken ≤ scan.previousOrderToken)
    s!"list {memoryId} next source-order token does not follow its rows"

/-- Whether the key generations of a map are positive, distinct, below the next one and
given to exactly the keys of its entries. -/
def mapGenerationFault (map : StoredMap) : Bool :=
  let generations := map.keyGenerations.toList.map Prod.snd
  map.nextKeyGeneration == 0 || decide (map.entries.keys ≠ map.keyGenerations.keys) ||
    decide (¬ generations.Nodup) || generations.contains 0 ||
    generations.any fun generation => decide (map.nextKeyGeneration ≤ generation)

def validateMap (collectionId : DurableCollectionId) (map : StoredMap) : Outcome Unit := do
  validateCollectionId collectionId
  invalidAuthority (mapGenerationFault map)
    s!"map {collectionId.memoryId} has invalid key generations"
  forM map.entries.toList fun entry => validateStoredValueShell entry.2 0

def validateSet (collectionId : DurableCollectionId) (_set : StoredSet) : Outcome Unit :=
  validateCollectionId collectionId

open Data Lib Checks Tally

variable (image : RestoreImage) (collectionId : DurableCollectionId)

/-- One row of the structural owner of a collection exists and agrees with the route. -/
def validateOwnerRow (step : DurableRowId × Nat) : Outcome Unit := do
  let (ownerRow, depth) := step
  let list ← okOr image.lists[ownerRow.listMemoryId]? (.invalidAuthority
    s!"collection {collectionId.memoryId} owner references missing list {ownerRow.listMemoryId}")
  let row ← okOr (list.rows.find? fun row => row.matches ownerRow.rowKey ownerRow.rowGeneration)
    (.invalidAuthority (s!"collection {collectionId.memoryId} owner references missing row " ++
      s!"{ownerRow.rowKey}:{ownerRow.rowGeneration}"))
  invalidAuthority (row.owner.ancestors ≠ collectionId.owner.ancestors.take (depth + 1))
    (s!"collection {collectionId.memoryId} owner ancestry disagrees with row " ++
      s!"{ownerRow.rowKey}:{ownerRow.rowGeneration}")

/-- The collection that a route passes through below its first `depth` steps. -/
def DurableCollectionId.parentAt (depth : Nat)
    (owner : DurableCollectionOwner) : DurableCollectionId where
  memoryId := owner.parentMemoryId
  owner := collectionId.owner
  collectionAncestors := collectionId.collectionAncestors.take depth

/-- The collection that the step at `depth` of a route attaches. -/
def DurableCollectionId.attachedAt (depth : Nat) : DurableCollectionId where
  memoryId := match collectionId.collectionAncestors[depth + 1]? with
    | some next => next.parentMemoryId
    | none => collectionId.memoryId
  owner := collectionId.owner
  collectionAncestors := collectionId.collectionAncestors.take (depth + 1)

/-- Whether an entry of the map refers to the collection. -/
def StoredMap.attaches (map : StoredMap) (key : Value) (collectionId : DurableCollectionId) :
    Bool :=
  match map.entries[key]? with
  | some shell => (storedShellChildAuthorities shell).contains collectionId
  | none => false

/-- One map entry of a collection route exists and attaches the next collection. -/
def validateOwnerEntry (step : DurableCollectionOwner × Nat) : Outcome Unit := do
  let (owner, depth) := step
  let parent ← okOr image.maps[collectionId.parentAt depth owner]? (.invalidAuthority
    (s!"collection {collectionId.memoryId} owner references missing parent MAP " ++
      s!"{owner.parentMemoryId}"))
  invalidAuthority (parent.keyGenerations[owner.key]? ≠ some owner.generation)
    (s!"collection {collectionId.memoryId} owner references stale parent MAP key " ++ "generation")
  invalidAuthority (parent.attaches owner.key (collectionId.attachedAt depth) = false)
    s!"collection {collectionId.memoryId} is not attached by its parent MAP value shell"

def validateCollectionOwnerAgainstImage : Outcome Unit := do
  forM collectionId.owner.ancestors.zipIdx (validateOwnerRow image collectionId)
  forM collectionId.collectionAncestors.zipIdx (validateOwnerEntry image collectionId)

/-- The child exists as exactly one of a map and a set. -/
def RestoreImage.hasOneCollection : Bool :=
  image.maps.contains collectionId != image.sets.contains collectionId

/-- The error of a full attachment counter. -/
def attachmentOverflow : StoreError :=
  .invalidAuthority "collection authority attachment count overflow"

/-- A map entry refers to an existing collection whose route ends in this entry. -/
def checkMapChild (parentId : DurableCollectionId) (key : Value)
    (generation : UInt64) (childId : DurableCollectionId) : Outcome Unit := do
  invalidAuthority (image.hasOneCollection childId = false)
    (s!"map {parentId.memoryId} references missing or ambiguous child collection " ++
      s!"{childId.memoryId}")
  let owner ← okOr childId.collectionAncestors.getLast? (.invalidAuthority
    (s!"map {parentId.memoryId} references child collection {childId.memoryId} " ++
      "without a parent route"))
  invalidAuthority (childId.owner ≠ parentId.owner ∨
      childId.collectionAncestors.dropLast ≠ parentId.collectionAncestors ∨
      owner.parentMemoryId ≠ parentId.memoryId ∨ owner.key ≠ key ∨ owner.generation ≠ generation)
    (s!"map {parentId.memoryId} child collection {childId.memoryId} disagrees with its " ++
      "typed parent edge")

/-- Counts the children of one map entry. -/
def attachMapEntry (parentId : DurableCollectionId) (map : StoredMap)
    (attachments : Counters DurableCollectionId) (entry : Value × StoredValueShell) :
    Outcome (Counters DurableCollectionId) := do
  let generation ← okOr map.keyGenerations[entry.1]? (.invalidAuthority
    s!"map {parentId.memoryId} contains a value without a key generation")
  (storedShellChildAuthorities entry.2).toList.foldlM (fun counters childId =>
    checkMapChild image parentId entry.1 generation childId >>= fun _ =>
      visit attachmentOverflow counters childId) attachments

def attachMap (attachments : Counters DurableCollectionId)
    (entry : DurableCollectionId × StoredMap) : Outcome (Counters DurableCollectionId) :=
  entry.2.entries.toList.foldlM (attachMapEntry image entry.1 entry.2) attachments

/-- A row field refers to an existing collection owned by exactly this row. -/
def checkRowChild (listMemoryId : MemoryId) (row : StoredRow)
    (childId : DurableCollectionId) : Outcome Unit := do
  invalidAuthority (image.hasOneCollection childId = false)
    (s!"list {listMemoryId} row {row.key}:{row.generation} references missing or ambiguous " ++
      s!"child collection {childId.memoryId}")
  invalidAuthority (childId.collectionAncestors ≠ [] ∨ childId.owner ≠ row.owner ∨
      childId.owner.ancestors.getLast? ≠ some ⟨listMemoryId, row.key, row.generation⟩)
    (s!"list {listMemoryId} row {row.key}:{row.generation} child collection " ++
      s!"{childId.memoryId} disagrees with its typed parent edge")

/-- Counts the children of one row field. -/
def attachRowField (listMemoryId : MemoryId) (row : StoredRow)
    (attachments : Counters DurableCollectionId) (field : MemoryLeafId × StoredValueShell) :
    Outcome (Counters DurableCollectionId) :=
  (storedShellChildAuthorities field.2).toList.foldlM (fun counters childId =>
    checkRowChild image listMemoryId row childId >>= fun _ =>
      visit attachmentOverflow counters childId) attachments

def attachRow (listMemoryId : MemoryId)
    (attachments : Counters DurableCollectionId) (row : StoredRow) :
    Outcome (Counters DurableCollectionId) :=
  row.fields.toList.foldlM (attachRowField image listMemoryId row) attachments

def attachList (attachments : Counters DurableCollectionId)
    (entry : MemoryId × StoredList) : Outcome (Counters DurableCollectionId) :=
  entry.2.rows.foldlM (attachRow image entry.1) attachments

/-- Nested collections have one parent edge, root collections none. -/
def DurableCollectionId.expectedAttachments : UInt64 :=
  if collectionId.collectionAncestors ≠ [] ∨ collectionId.owner.ancestors ≠ [] then 1 else 0

def validateCollectionAuthorityGraph : Outcome Unit := do
  forM image.maps.toList fun entry => do
    validateMap entry.1 entry.2
    validateCollectionOwnerAgainstImage image entry.1
  forM image.sets.toList fun entry => do
    validateSet entry.1 entry.2
    validateCollectionOwnerAgainstImage image entry.1
  let attachments ← image.maps.toList.foldlM (attachMap image) ∅
  let attachments ← image.lists.toList.foldlM (attachList image) attachments
  forM (image.maps.keys ++ image.sets.keys) fun collectionId =>
    invalidAuthority (attachments.at collectionId ≠ collectionId.expectedAttachments)
      s!"collection {collectionId.memoryId} does not have exactly one typed parent edge"

end BoonCircuit.Persistence
