import BoonCircuit.Persistence.Changes
import BoonCircuit.Persistence.Validation

/-!
# What graph validation accepts

`GraphOk` states the accepted images without loops, counters or error order:
stored maps and sets are well formed, every owner route leads through existing
rows and map entries, every child reference agrees with the route of the child,
and every collection has the expected number of references.

`SetRowField` is the one list change that is not followed by a validation of the whole
list.  An accepted override of a valid list gives a valid list as soon as the new field
value is an accepted shell.
-/

namespace BoonCircuit.Persistence

open Data Lib Checks Tally BTreeMap RestoreImage List

/-- The row that a list stores under a key and generation. -/
def StoredList.rowAt (list : StoredList) (key generation : UInt64) : Option StoredRow :=
  list.rows.find? fun row => row.matches key generation

/-- Every row of the owner exists and is owned by the rows before it. -/
def OwnerRouteOk (lists : BTreeMap MemoryId StoredList) (owner : DurableOwner) : Prop :=
  ∀ depth ownerRow, owner.ancestors[depth]? = some ownerRow →
    ∃ list row, lists[ownerRow.listMemoryId]? = some list ∧
      list.rowAt ownerRow.rowKey ownerRow.rowGeneration = some row ∧
      row.owner.ancestors = owner.ancestors.take (depth + 1)

/-- Every entry of the route exists at its generation and attaches the next collection. -/
def CollectionRouteOk (maps : BTreeMap DurableCollectionId StoredMap)
    (collectionId : DurableCollectionId) : Prop :=
  ∀ depth owner, collectionId.collectionAncestors[depth]? = some owner →
    ∃ parent, maps[collectionId.parentAt depth owner]? = some parent ∧
      parent.keyGenerations[owner.key]? = some owner.generation ∧
      parent.attaches owner.key (collectionId.attachedAt depth) = true

private theorem forM_zipIdx_eq_ok_iff {α : Type} {items : List α}
    {check : α × Nat → Outcome Unit} {done : Unit} :
    forM items.zipIdx check = .ok done ↔
      ∀ index item, items[index]? = some item → check (item, index) = .ok () := by
  rw [forM_eq_ok_iff]
  constructor
  · intro every index item found
    exact every _ (mk_mem_zipIdx_iff_getElem?.mpr found)
  · rintro every ⟨item, index⟩ member
    exact every index item (mk_mem_zipIdx_iff_getElem?.mp member)

variable {image : RestoreImage} {collectionId childId id : DurableCollectionId}
  {shell : StoredValueShell}
  {depth : Nat}

theorem validateOwnerRow_eq_ok_iff {ownerRow : DurableRowId} :
    validateOwnerRow image collectionId (ownerRow, depth) = .ok () ↔
      ∃ list row, image.lists[ownerRow.listMemoryId]? = some list ∧
        list.rowAt ownerRow.rowKey ownerRow.rowGeneration = some row ∧
        row.owner.ancestors = collectionId.owner.ancestors.take (depth + 1) := by
  simp only [validateOwnerRow, bind_eq_ok_iff, okOr_eq_ok_iff, invalidAuthority_eq_ok_iff, not_not]
  constructor
  · rintro ⟨list, listFound, row, rowFound, same⟩
    exact ⟨list, row, listFound, rowFound, same⟩
  · rintro ⟨list, row, listFound, rowFound, same⟩
    exact ⟨list, listFound, row, rowFound, same⟩

theorem validateOwnerEntry_eq_ok_iff {owner : DurableCollectionOwner} :
    validateOwnerEntry image collectionId (owner, depth) = .ok () ↔
      ∃ parent, image.maps[collectionId.parentAt depth owner]? = some parent ∧
        parent.keyGenerations[owner.key]? = some owner.generation ∧
        parent.attaches owner.key (collectionId.attachedAt depth) = true := by
  simp only [validateOwnerEntry, bind_eq_ok_iff, okOr_eq_ok_iff, invalidAuthority_eq_ok_iff,
    not_not, Bool.not_eq_false]
  constructor
  · rintro ⟨parent, found, _, generation, attached⟩
    exact ⟨parent, found, generation, attached⟩
  · rintro ⟨parent, found, generation, attached⟩
    exact ⟨parent, found, (), generation, attached⟩

theorem validateCollectionOwnerAgainstImage_eq_ok_iff :
    validateCollectionOwnerAgainstImage image collectionId = .ok () ↔
      OwnerRouteOk image.lists collectionId.owner ∧ CollectionRouteOk image.maps collectionId := by
  rw [validateCollectionOwnerAgainstImage, check_bind_eq_ok_iff, forM_zipIdx_eq_ok_iff,
    forM_zipIdx_eq_ok_iff]
  simp only [validateOwnerRow_eq_ok_iff, validateOwnerEntry_eq_ok_iff]
  rfl

theorem mem_storedShellChildAuthorities :
    collectionId ∈ storedShellChildAuthorities shell ↔ collectionId ∈ shell.references := by
  rw [storedShellChildAuthorities, Std.ExtTreeSet.mem_ofList, contains_iff_mem]

/-- A map entry may refer to the collection whose route ends in the entry. -/
def MapEdgeOk (image : RestoreImage) (parentId : DurableCollectionId) (key : Value)
    (generation : UInt64) (childId : DurableCollectionId) : Prop :=
  image.hasOneCollection childId = true ∧ childId.owner = parentId.owner ∧
    childId.collectionAncestors =
      parentId.collectionAncestors ++ [⟨parentId.memoryId, key, generation⟩]

/-- A row field may refer to a root collection of the row. -/
def RowEdgeOk (image : RestoreImage) (listMemoryId : MemoryId) (row : StoredRow)
    (childId : DurableCollectionId) : Prop :=
  image.hasOneCollection childId = true ∧ childId.collectionAncestors = [] ∧
    childId.owner = row.owner ∧
    row.owner.ancestors.getLast? = some ⟨listMemoryId, row.key, row.generation⟩

theorem checkMapChild_eq_ok_iff {parentId : DurableCollectionId}
    {key : Value} {generation : UInt64} :
    checkMapChild image parentId key generation childId = .ok () ↔
      MapEdgeOk image parentId key generation childId := by
  simp only [checkMapChild, bind_eq_ok_iff, okOr_eq_ok_iff, invalidAuthority_eq_ok_iff, not_or,
    not_not, Bool.not_eq_false]
  constructor
  · rintro ⟨_, one, ⟨_, _, _⟩, last, owners, routes, rfl, rfl, rfl⟩
    refine ⟨one, owners, ?_⟩
    rw [← routes]
    exact (dropLast_append_getLast? _ last).symm
  · rintro ⟨one, owners, route⟩
    refine ⟨(), one, ⟨parentId.memoryId, key, generation⟩, ?_, owners, ?_, rfl, rfl, rfl⟩
    · rw [route, getLast?_concat]
    · rw [route, dropLast_concat]

theorem checkRowChild_eq_ok_iff {listMemoryId : MemoryId} {row : StoredRow} :
    checkRowChild image listMemoryId row childId = .ok () ↔
      RowEdgeOk image listMemoryId row childId := by
  simp only [checkRowChild, bind_eq_ok_iff, invalidAuthority_eq_ok_iff, not_or, not_not,
    Bool.not_eq_false]
  constructor
  · rintro ⟨_, one, route, owners, leaf⟩
    exact ⟨one, route, owners, owners ▸ leaf⟩
  · rintro ⟨one, route, owners, leaf⟩
    exact ⟨(), one, route, owners, owners ▸ leaf⟩

/-- The collections referred to by a shell, each once. -/
def StoredValueShell.children (shell : StoredValueShell) : List DurableCollectionId :=
  (storedShellChildAuthorities shell).toList

theorem StoredValueShell.mem_children :
    collectionId ∈ shell.children ↔ collectionId ∈ shell.references := by
  rw [children, Std.ExtTreeSet.mem_toList, mem_storedShellChildAuthorities]

def StoredMap.references (map : StoredMap) : List DurableCollectionId :=
  map.entries.toList.flatMap fun entry => entry.2.children

def StoredRow.references (row : StoredRow) : List DurableCollectionId :=
  row.fields.toList.flatMap fun field => field.2.children

def StoredList.references (list : StoredList) : List DurableCollectionId :=
  list.rows.flatMap StoredRow.references

/-- Every reference inside an image, as often as it is made. -/
def RestoreImage.references (image : RestoreImage) : List DurableCollectionId :=
  (image.maps.toList.flatMap fun entry => entry.2.references) ++
    image.lists.toList.flatMap fun entry => entry.2.references

private theorem counts_children (check : DurableCollectionId → Outcome Unit) :
    Counts (fun counters children =>
        children.foldlM (fun counters childId =>
          check childId >>= fun _ => visit attachmentOverflow counters childId) counters)
      (fun children => ∀ childId ∈ children, check childId = .ok ()) fun children => children := by
  have counts := (counts_visit attachmentOverflow check).foldlM
  simpa using counts

theorem counts_attachMapEntry (image : RestoreImage) (parentId : DurableCollectionId)
    (map : StoredMap) :
    Counts (attachMapEntry image parentId map)
      (fun entry => ∃ generation, map.keyGenerations[entry.1]? = some generation ∧
        ∀ childId ∈ entry.2.children, MapEdgeOk image parentId entry.1 generation childId)
      fun entry => entry.2.children := by
  intro counters entry final
  rw [attachMapEntry, bind_eq_ok_iff]
  simp only [okOr_eq_ok_iff, ← checkMapChild_eq_ok_iff]
  constructor
  · rintro ⟨generation, found, counted⟩
    rcases (counts_children _ _ _ _).mp counted with ⟨good, fits, tallied⟩
    exact ⟨⟨generation, found, good⟩, fits, tallied⟩
  · rintro ⟨⟨generation, found, good⟩, fits, tallied⟩
    exact ⟨generation, found, (counts_children _ _ _ _).mpr ⟨good, fits, tallied⟩⟩

theorem counts_attachMap (image : RestoreImage) :
    Counts (attachMap image)
      (fun entry => ∀ pair ∈ entry.2.entries.toList, ∃ generation,
        entry.2.keyGenerations[pair.1]? = some generation ∧
        ∀ childId ∈ pair.2.children, MapEdgeOk image entry.1 pair.1 generation childId)
      fun entry => entry.2.references :=
  fun counters entry => (counts_attachMapEntry image entry.1 entry.2).foldlM counters
    entry.2.entries.toList

theorem counts_attachRowField (image : RestoreImage) (listMemoryId : MemoryId) (row : StoredRow) :
    Counts (attachRowField image listMemoryId row)
      (fun field => ∀ childId ∈ field.2.children, RowEdgeOk image listMemoryId row childId)
      fun field => field.2.children := by
  intro counters field final
  simp only [← checkRowChild_eq_ok_iff]
  exact counts_children _ _ _ _

theorem counts_attachRow (image : RestoreImage) (listMemoryId : MemoryId) :
    Counts (attachRow image listMemoryId)
      (fun row => ∀ field ∈ row.fields.toList, ∀ childId ∈ field.2.children,
        RowEdgeOk image listMemoryId row childId)
      StoredRow.references :=
  fun counters row => (counts_attachRowField image listMemoryId row).foldlM counters
    row.fields.toList

theorem counts_attachList (image : RestoreImage) :
    Counts (attachList image)
      (fun entry => ∀ row ∈ entry.2.rows, ∀ field ∈ row.fields.toList,
        ∀ childId ∈ field.2.children, RowEdgeOk image entry.1 row childId)
      fun entry => entry.2.references :=
  fun counters entry => (counts_attachRow image entry.1).foldlM counters entry.2.rows

/-- An image whose collections form a well-attached graph. -/
structure GraphOk (image : RestoreImage) : Prop where
  maps : ∀ id map, image.maps[id]? = some map → validateMap id map = .ok ()
  sets : ∀ id set, image.sets[id]? = some set → validateSet id set = .ok ()
  ownerRoutes : ∀ id, id ∈ image.maps ∨ id ∈ image.sets → OwnerRouteOk image.lists id.owner
  collectionRoutes : ∀ id, id ∈ image.maps ∨ id ∈ image.sets → CollectionRouteOk image.maps id
  mapEdges : ∀ id map, image.maps[id]? = some map → ∀ key shell,
    map.entries[key]? = some shell → ∃ generation, map.keyGenerations[key]? = some generation ∧
      ∀ childId ∈ shell.references, MapEdgeOk image id key generation childId
  rowEdges : ∀ id list, image.lists[id]? = some list → ∀ row ∈ list.rows,
    ∀ (field : MemoryLeafId) shell, row.fields[field]? = some shell →
      ∀ childId ∈ shell.references, RowEdgeOk image id row childId
  attached : ∀ id, id ∈ image.maps ∨ id ∈ image.sets →
    image.references.count id = id.expectedAttachments.toNat

theorem GraphOk.transfer {next : RestoreImage} (graph : GraphOk image)
    (lists : next.lists = image.lists) (maps : next.maps = image.maps)
    (sets : next.sets = image.sets) : GraphOk next := by
  rcases next with ⟨_, _, _, _, _, _, _, _, _, _, _, _⟩
  cases lists
  cases maps
  cases sets
  exact { graph with }

/-- What the counting loops check of the references they count. -/
def EdgesOk (image : RestoreImage) : Prop :=
  (∀ entry ∈ image.maps.toList, ∀ pair ∈ entry.2.entries.toList, ∃ generation,
    entry.2.keyGenerations[pair.1]? = some generation ∧
    ∀ childId ∈ pair.2.children, MapEdgeOk image entry.1 pair.1 generation childId) ∧
  ∀ entry ∈ image.lists.toList, ∀ row ∈ entry.2.rows, ∀ field ∈ row.fields.toList,
    ∀ childId ∈ field.2.children, RowEdgeOk image entry.1 row childId

/-- Both counting loops together count every reference once. -/
private theorem attachments_eq_ok_iff {check : Counters DurableCollectionId → Outcome Unit} :
    (image.maps.toList.foldlM (attachMap image) ∅ >>= fun attachments =>
      image.lists.toList.foldlM (attachList image) attachments >>= check) = .ok () ↔
    EdgesOk image ∧ Fits ∅ image.references ∧ check (tally ∅ image.references) = .ok () := by
  have maps := (counts_attachMap image).foldlM ∅ image.maps.toList
  have lists := fun counters => (counts_attachList image).foldlM counters image.lists.toList
  simp only [bind_eq_ok_iff, maps, lists, references, fits_append, tally_append]
  constructor
  · rintro ⟨_, ⟨mapsGood, mapsFit, rfl⟩, _, ⟨listsGood, listsFit, rfl⟩, checked⟩
    exact ⟨⟨mapsGood, listsGood⟩, ⟨mapsFit, listsFit⟩, checked⟩
  · rintro ⟨⟨mapsGood, listsGood⟩, ⟨mapsFit, listsFit⟩, checked⟩
    exact ⟨_, ⟨mapsGood, mapsFit, rfl⟩, _, ⟨listsGood, listsFit, rfl⟩, checked⟩

private theorem forall_children_iff {Property : DurableCollectionId → Prop} :
    (∀ childId ∈ shell.children, Property childId) ↔
      ∀ childId ∈ shell.references, Property childId := by
  simp only [StoredValueShell.mem_children]

theorem mem_of_hasOneCollection
    (one : image.hasOneCollection id = true) : id ∈ image.maps ∨ id ∈ image.sets := by
  rw [← Std.ExtTreeMap.contains_iff_mem]
  unfold hasOneCollection at one
  cases inMaps : image.maps.contains id with
  | true => exact .inl rfl
  | false =>
    rw [inMaps] at one
    exact .inr (by simpa using one)

theorem expectedAttachments_toNat_le_one (id : DurableCollectionId) :
    id.expectedAttachments.toNat ≤ 1 := by
  unfold DurableCollectionId.expectedAttachments
  split <;> decide

theorem counters_at_empty (id : DurableCollectionId) :
    (∅ : Counters DurableCollectionId).at id = 0 := by
  simp [Counters.at]

theorem exists_of_mem_references (ok : EdgesOk image) (member : id ∈ image.references) :
    id ∈ image.maps ∨ id ∈ image.sets := by
  rw [references, mem_append, mem_flatMap, mem_flatMap] at member
  rcases member with ⟨entry, entryMember, member⟩ | ⟨entry, entryMember, member⟩
  · rcases mem_flatMap.mp member with ⟨pair, pairMember, child⟩
    rcases ok.1 entry entryMember pair pairMember with ⟨_, _, edges⟩
    exact mem_of_hasOneCollection (edges id child).1
  · rcases mem_flatMap.mp member with ⟨row, rowMember, member⟩
    rcases mem_flatMap.mp member with ⟨field, fieldMember, child⟩
    exact mem_of_hasOneCollection (ok.2 entry entryMember row rowMember field fieldMember
      id child).1

theorem validateCollectionAuthorityGraph_eq_ok_iff :
    validateCollectionAuthorityGraph image = .ok () ↔ GraphOk image := by
  rw [validateCollectionAuthorityGraph]
  simp only [check_bind_eq_ok_iff, attachments_eq_ok_iff, forM_eq_ok_iff,
    validateCollectionOwnerAgainstImage_eq_ok_iff, invalidAuthority_eq_ok_iff, not_not,
    mem_append, Std.ExtTreeMap.mem_keys]
  constructor
  · rintro ⟨maps, sets, ⟨mapEdges, rowEdges⟩, fits, attached⟩
    refine ⟨?_, ?_, ?_, ?_, ?_, ?_, ?_⟩
    · exact fun id map found => (maps _ (mem_toList found)).1
    · exact fun id set found => (sets _ (mem_toList found)).1
    · rintro id (inMaps | inSets)
      · rcases mem_iff_exists.mp inMaps with ⟨map, found⟩
        exact (maps _ (mem_toList found)).2.1
      · rcases mem_iff_exists.mp inSets with ⟨set, found⟩
        exact (sets _ (mem_toList found)).2.1
    · rintro id (inMaps | inSets)
      · rcases mem_iff_exists.mp inMaps with ⟨map, found⟩
        exact (maps _ (mem_toList found)).2.2
      · rcases mem_iff_exists.mp inSets with ⟨set, found⟩
        exact (sets _ (mem_toList found)).2.2
    · intro id map found key shell entry
      have edges := mapEdges _ (mem_toList found) _ (mem_toList entry)
      simpa only [forall_children_iff] using edges
    · intro id list found row rowMember field shell entry
      exact forall_children_iff.mp (rowEdges _ (mem_toList found) row rowMember _
        (mem_toList entry))
    · intro id member
      have counted := toNat_at_tally fits id
      rw [attached id member, counters_at_empty] at counted
      simpa using counted.symm
  · intro ok
    have edges : EdgesOk image := by
      constructor
      · intro entry entryMember pair pairMember
        simp only [forall_children_iff]
        exact ok.mapEdges _ _ (mem_toList_iff.mp entryMember) _ _ (mem_toList_iff.mp pairMember)
      · intro entry entryMember row rowMember field fieldMember
        exact forall_children_iff.mpr (ok.rowEdges _ _ (mem_toList_iff.mp entryMember) row
          rowMember _ _ (mem_toList_iff.mp fieldMember))
    have fits : Fits ∅ image.references := by
      intro id
      rw [counters_at_empty]
      by_cases member : id ∈ image.references
      · rw [ok.attached id (exists_of_mem_references edges member)]
        have bound := expectedAttachments_toNat_le_one id
        simp
        omega
      · rw [count_eq_zero.mpr member]
        decide
    have routes id (member : id ∈ image.maps ∨ id ∈ image.sets) :=
      And.intro (ok.ownerRoutes id member) (ok.collectionRoutes id member)
    refine ⟨?_, ?_, edges, fits, ?_⟩
    · intro entry entryMember
      have found := mem_toList_iff.mp entryMember
      exact ⟨ok.maps _ _ found, routes _ (.inl (mem_iff_exists.mpr ⟨_, found⟩))⟩
    · intro entry entryMember
      have found := mem_toList_iff.mp entryMember
      exact ⟨ok.sets _ _ found, routes _ (.inr (mem_iff_exists.mpr ⟨_, found⟩))⟩
    · intro id member
      have counted := toNat_at_tally fits id
      rw [counters_at_empty, ok.attached id member] at counted
      exact UInt64.toNat_inj.mp (by simpa using counted)

open StoredRow Std ExtTreeMap

/-- The fields of a row are accepted shells. -/
def RowShellsOk (row : StoredRow) : Prop :=
  ∀ (field : MemoryLeafId) (shell : StoredValueShell), row.fields[field]? = some shell →
    validateStoredValueShell shell 0 = .ok ()

/-- A row only touches fields it has. -/
def RowTouchesFields (row : StoredRow) : Prop :=
  ∀ field, field ∈ row.touchedFields → field ∈ row.fields

variable {row : StoredRow} {memoryId : MemoryId} {touched : Bool} {scan : ListScan}
  {fieldId : MemoryLeafId} {value : StoredValueShell} {rowKey rowGeneration revision : UInt64}
  {list next : StoredList} {materializationOrigin : Option DurableOwner} {rows : List StoredRow}
  {owner : DurableOwner}

theorem sparseRowFault_eq_false_iff :
    sparseRowFault row = false ↔
      row.touchedFields ≠ ∅ ∧ (∀ field, field ∈ row.fields → field ∈ row.touchedFields) ∧
        row.sourceOrderToken = 0 := by
  unfold sparseRowFault
  rw [Bool.or_eq_false_iff, Bool.or_eq_false_iff, and_assoc]
  simp

theorem scanRow_eq_ok_iff {next : ListScan} :
    scanRow memoryId touched scan row = .ok next ↔
      (row.key, row.generation) ∉ scan.rows ∧ validateRowOwner memoryId row = .ok () ∧
      RowShellsOk row ∧ RowTouchesFields row ∧ (touched = false → sparseRowFault row = false) ∧
      ∃ previous, scanOrderToken memoryId touched scan.previousOrderToken row = .ok previous ∧
        next = ⟨(row.key, row.generation) :: scan.rows,
          max scan.minimumNext (saturatingSucc row.key), previous⟩ := by
  have shells : (forM row.fields.toList fun field => validateStoredValueShell field.2 0) = .ok () ↔
      RowShellsOk row := by
    rw [forM_eq_ok_iff, BTreeMap.forall_mem_toList]
    rfl
  have touches : ¬ (row.touchedFields.toList.any fun field => !row.fields.contains field) ↔
      RowTouchesFields row := by
    simp [RowTouchesFields]
  have sparse : ¬ (touched = false ∧ sparseRowFault row = true) ↔
      (touched = false → sparseRowFault row = false) := by
    cases touched <;> simp
  rw [scanRow]
  simp only [check_bind_eq_ok_iff, invalidAuthority_eq_ok_iff, shells, touches, sparse]
  rw [bind_eq_ok_iff]
  simp only [pure_eq_ok_iff, eq_comm (b := next)]

theorem scanRow_setField {next : ListScan} (valueOk : validateStoredValueShell value 0 = .ok ())
    (scanned : scanRow memoryId touched scan row = .ok next) :
    scanRow memoryId touched scan (row.setField fieldId value) = .ok next := by
  rw [scanRow_eq_ok_iff] at scanned ⊢
  rcases scanned with ⟨fresh, owner, shells, touches, sparse, ordered⟩
  refine ⟨fresh, owner, ?_, ?_, ?_, ordered⟩
  · intro field shell found
    rcases BTreeMap.getElem?_insert_eq_some_iff.mp found with ⟨_, rfl⟩ | ⟨_, found⟩
    · exact valueOk
    · exact shells field shell found
  · intro field member
    simp only [setField, ExtTreeSet.mem_insert, ExtTreeMap.mem_insert] at member ⊢
    exact member.imp_right (touches field)
  · intro untouched
    have rowSparse := sparseRowFault_eq_false_iff.mp (sparse untouched)
    rw [sparseRowFault_eq_false_iff]
    refine ⟨by simp [setField], ?_, rowSparse.2.2⟩
    intro field member
    simp only [setField, ExtTreeSet.mem_insert, ExtTreeMap.mem_insert] at member ⊢
    exact member.imp_right (rowSparse.2.1 field)

theorem scanRow_overrideRow (valueOk : validateStoredValueShell value 0 = .ok ())
    (fresh : (rowKey, rowGeneration) ∉ scan.rows) (ownerOk : validateRowOwner memoryId
      ((overrideRow rowKey rowGeneration owner materializationOrigin).setField fieldId value) =
        .ok ()) :
    ∃ next, scanRow memoryId false scan
      ((overrideRow rowKey rowGeneration owner materializationOrigin).setField fieldId value) =
        .ok next := by
  refine ⟨_, scanRow_eq_ok_iff.mpr ⟨fresh, ownerOk, ?_, ?_, ?_, _, rfl, rfl⟩⟩
  · intro field shell found
    rcases BTreeMap.getElem?_insert_eq_some_iff.mp found with ⟨_, rfl⟩ | ⟨_, found⟩
    · exact valueOk
    · simp [overrideRow] at found
  · intro field member
    simpa [setField, overrideRow] using member
  · intro _
    rw [sparseRowFault_eq_false_iff]
    simp [setField, overrideRow]

theorem mem_rows_of_scan :
    ∀ {scan final : ListScan} {seen : UInt64 × UInt64},
      rows.foldlM (scanRow memoryId touched) scan = .ok final → seen ∈ final.rows →
      seen ∈ scan.rows ∨ ∃ row ∈ rows, seen = (row.key, row.generation) := by
  induction rows with
  | nil =>
    intro scan final seen scanned member
    cases scanned
    exact .inl member
  | cons row rows ih =>
    intro scan final seen scanned member
    rw [foldlM_cons, bind_eq_ok_iff] at scanned
    rcases scanned with ⟨_, first, rest⟩
    rcases scanRow_eq_ok_iff.mp first with ⟨_, _, _, _, _, _, _, rfl⟩
    rcases ih rest member with earlier | ⟨later, laterMember, seen_eq⟩
    · rcases mem_cons.mp earlier with seen_eq | earlier
      · exact .inr ⟨row, mem_cons_self, seen_eq⟩
      · exact .inl earlier
    · exact .inr ⟨later, mem_cons_of_mem _ laterMember, seen_eq⟩

theorem scan_updateRow (valueOk : validateStoredValueShell value 0 = .ok ()) :
    ∀ {scan final : ListScan}, rows.foldlM (scanRow memoryId touched) scan = .ok final →
      (updateRow rowKey rowGeneration (fun row => row.setField fieldId value) rows).foldlM
        (scanRow memoryId touched) scan = .ok final := by
  induction rows with
  | nil =>
    intro scan final scanned
    exact scanned
  | cons row rows ih =>
    intro scan final scanned
    rw [foldlM_cons, bind_eq_ok_iff] at scanned
    rcases scanned with ⟨_, first, rest⟩
    unfold updateRow
    split
    · rw [foldlM_cons, scanRow_setField valueOk first]
      exact rest
    · rw [foldlM_cons, first]
      exact ih rest

theorem validateList_eq_ok_iff :
    validateList memoryId list = .ok () ↔
      ∃ scan, list.rows.foldlM (scanRow memoryId list.touched) ⟨[], 1, 0⟩ = .ok scan ∧
        ¬ (list.touched = false ∧ (list.nextKey ≠ 0 ∨ list.nextOrderToken ≠ 0)) ∧
        ¬ (list.touched = true ∧ list.nextKey < scan.minimumNext) ∧
        ¬ (list.touched = true ∧ list.nextOrderToken ≤ scan.previousOrderToken) := by
  rw [validateList, bind_eq_ok_iff]
  simp only [check_bind_eq_ok_iff, invalidAuthority_eq_ok_iff]

theorem validateList_sparseList : validateList memoryId (sparseList revision) = .ok () := by
  rw [validateList_eq_ok_iff]
  exact ⟨_, rfl, by simp [sparseList]⟩

theorem validateList_of_advanceListRevision (listOk : validateList memoryId list = .ok ())
    (advanced : advanceListRevision memoryId list revision = .ok next) :
    validateList memoryId next = .ok () := by
  rw [advanceListRevision, check_bind_eq_ok_iff, pure_eq_ok_iff] at advanced
  rcases advanced with ⟨_, rfl⟩
  exact listOk

theorem validateList_of_setFieldInRows (valueOk : validateStoredValueShell value 0 = .ok ())
    (listOk : validateList memoryId list = .ok ())
    (changed : setFieldInRows memoryId list rowKey rowGeneration owner materializationOrigin
      fieldId value = .ok next) : validateList memoryId next = .ok () := by
  rcases validateList_eq_ok_iff.mp listOk with ⟨scan, scanned, allocator, keys, tokens⟩
  unfold setFieldInRows at changed
  split at changed
  case h_1 row found =>
    simp only [check_bind_eq_ok_iff, pure_eq_ok_iff] at changed
    rcases changed with ⟨_, _, rfl⟩
    exact validateList_eq_ok_iff.mpr
      ⟨scan, scan_updateRow valueOk scanned, allocator, keys, tokens⟩
  case h_2 missing =>
    simp only [check_bind_eq_ok_iff, pure_eq_ok_iff, invalidAuthority_eq_ok_iff,
      Bool.not_eq_true] at changed
    rcases changed with ⟨untouched, ownerOk, rfl⟩
    have fresh : (rowKey, rowGeneration) ∉ scan.rows := by
      intro member
      rcases mem_rows_of_scan scanned member with none | ⟨row, rowMember, seen_eq⟩
      · cases none
      · have unmatched := find?_eq_none.mp missing row rowMember
        cases seen_eq
        simp [StoredRow.matches] at unmatched
    rcases scanRow_overrideRow valueOk fresh ownerOk with ⟨final, last⟩
    rw [validateList_eq_ok_iff]
    refine ⟨final, ?_, allocator, by simp [untouched], by simp [untouched]⟩
    rw [foldlM_append, scanned, untouched]
    exact bind_eq_ok_iff.mpr ⟨scan, rfl, by simpa using last⟩

end BoonCircuit.Persistence
