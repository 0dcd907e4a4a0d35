import BoonCircuit.Persistence.ChangeInvariants

/-!
# Bulk deletion by memory

An activation drops every authority of the deleted memories after its changes
have been validated.  The collection graph survives when the deleted memories
are closed along owner routes: no kept collection is owned through a deleted
memory, and no deleted collection is referred to from a kept one.
-/

namespace BoonCircuit.Persistence

open Data Lib Checks Tally BTreeMap RestoreImage Std DurableCollectionId List

/-- The image without the authorities of the given memories. -/
def RestoreImage.without (image : RestoreImage) (deleted : List MemoryId) : RestoreImage :=
  { image with
    scalars := image.scalars.filter fun memoryId _ => decide (memoryId ∉ deleted)
    lists := image.lists.filter fun memoryId _ => decide (memoryId ∉ deleted)
    maps := image.maps.filter fun collectionId _ => decide (collectionId.memoryId ∉ deleted)
    sets := image.sets.filter fun collectionId _ => decide (collectionId.memoryId ∉ deleted) }

variable {ν : Type} {memory : MemoryId} {deleted : List MemoryId}

private theorem filter_erase {map : BTreeMap MemoryId ν} :
    ((map.erase memory).filter fun memoryId _ => decide (memoryId ∉ deleted)) =
      map.filter fun memoryId _ => decide (memoryId ∉ memory :: deleted) := by
  apply ExtTreeMap.ext_getElem?
  intro key
  rw [getElem?_filter fun memoryId => decide (memoryId ∉ deleted),
    getElem?_filter fun memoryId => decide (memoryId ∉ memory :: deleted), getElem?_erase]
  by_cases same : memory = key
  · simp [same]
  · simp [same, Ne.symm same]

private theorem filter_filter {map : BTreeMap DurableCollectionId ν} :
    ((map.filter fun collectionId _ => collectionId.memoryId != memory).filter
        fun collectionId _ => decide (collectionId.memoryId ∉ deleted)) =
      map.filter fun collectionId _ => decide (collectionId.memoryId ∉ memory :: deleted) := by
  apply ExtTreeMap.ext_getElem?
  intro key
  rw [getElem?_filter fun id : DurableCollectionId => decide (id.memoryId ∉ deleted),
    getElem?_filter fun id : DurableCollectionId => id.memoryId != memory,
    getElem?_filter fun id : DurableCollectionId => decide (id.memoryId ∉ memory :: deleted)]
  by_cases same : key.memoryId = memory <;> simp [same]

theorem foldl_deleteMemory :
    ∀ {image : RestoreImage}, deleted.foldl deleteMemory image = image.without deleted := by
  induction deleted with
  | nil =>
    intro image
    simp [without]
  | cons memory deleted ih =>
    intro image
    rw [foldl_cons, ih]
    simp only [without, deleteMemory, filter_erase, filter_filter]

section Without

variable {image : RestoreImage} {deleted : List MemoryId}

variable {memoryId : MemoryId} {collectionId : DurableCollectionId}

variable {list : StoredList} {map : StoredMap} {parent listMemoryId : MemoryId}
  {parentId childId : DurableCollectionId}

theorem without_lists_eq_some_iff :
    (image.without deleted).lists[memoryId]? = some list ↔
      memoryId ∉ deleted ∧ image.lists[memoryId]? = some list :=
  (getElem?_filter_eq_some_iff fun memoryId => decide (memoryId ∉ deleted)).trans
    (and_congr_left' decide_eq_true_iff)

theorem without_maps_eq_some_iff :
    (image.without deleted).maps[collectionId]? = some map ↔
      collectionId.memoryId ∉ deleted ∧ image.maps[collectionId]? = some map :=
  (getElem?_filter_eq_some_iff fun collectionId : DurableCollectionId =>
    decide (collectionId.memoryId ∉ deleted)).trans (and_congr_left' decide_eq_true_iff)

theorem without_sets_eq_some_iff {set : StoredSet} :
    (image.without deleted).sets[collectionId]? = some set ↔
      collectionId.memoryId ∉ deleted ∧ image.sets[collectionId]? = some set :=
  (getElem?_filter_eq_some_iff fun collectionId : DurableCollectionId =>
    decide (collectionId.memoryId ∉ deleted)).trans (and_congr_left' decide_eq_true_iff)

theorem mem_without_maps_iff :
    collectionId ∈ (image.without deleted).maps ↔
      collectionId.memoryId ∉ deleted ∧ collectionId ∈ image.maps :=
  (mem_filter fun collectionId : DurableCollectionId =>
    decide (collectionId.memoryId ∉ deleted)).trans (and_congr_left' decide_eq_true_iff)

theorem mem_without_sets_iff :
    collectionId ∈ (image.without deleted).sets ↔
      collectionId.memoryId ∉ deleted ∧ collectionId ∈ image.sets :=
  (mem_filter fun collectionId : DurableCollectionId =>
    decide (collectionId.memoryId ∉ deleted)).trans (and_congr_left' decide_eq_true_iff)

theorem uses_of_without {kind : AuthorityKind}
    (used : (image.without deleted).Uses memoryId kind) : image.Uses memoryId kind := by
  cases kind with
  | scalar | list => exact ((mem_filter fun memoryId => decide (memoryId ∉ deleted)).mp used).2
  | map =>
    rcases used with ⟨collectionId, member, same⟩
    exact ⟨collectionId, (mem_without_maps_iff.mp member).2, same⟩
  | set =>
    rcases used with ⟨collectionId, member, same⟩
    exact ⟨collectionId, (mem_without_sets_iff.mp member).2, same⟩

theorem ListsOk.without (lists : ListsOk image) : ListsOk (image.without deleted) :=
  fun memoryId list found => lists memoryId list (without_lists_eq_some_iff.mp found).2

theorem KindsOk.without (kinds : KindsOk image) : KindsOk (image.without deleted) :=
  kinds.mono fun _ _ => uses_of_without

/-- The memory that refers to a nested collection. -/
def DurableCollectionId.parentMemory (collectionId : DurableCollectionId) : Option MemoryId :=
  match collectionId.collectionAncestors.getLast? with
  | some owner => some owner.parentMemoryId
  | none => collectionId.owner.ancestors.getLast?.map DurableRowId.listMemoryId

/-- Every memory on the owner route of a collection. -/
def DurableCollectionId.routeMemories (collectionId : DurableCollectionId) : List MemoryId :=
  collectionId.owner.ancestors.map DurableRowId.listMemoryId ++
    collectionId.collectionAncestors.map DurableCollectionOwner.parentMemoryId

/-- A deleted collection loses its parent too; a kept one keeps its whole route. -/
def DeletionClosed (deleted : List MemoryId) (collectionId : DurableCollectionId) : Prop :=
  if collectionId.memoryId ∈ deleted then
    ∀ parent ∈ collectionId.parentMemory, parent ∈ deleted
  else ∀ memoryId ∈ collectionId.routeMemories, memoryId ∉ deleted

theorem DeletionClosed.route (closed : DeletionClosed deleted collectionId)
    (kept : collectionId.memoryId ∉ deleted) (member : memoryId ∈ collectionId.routeMemories) :
    memoryId ∉ deleted := by
  rw [DeletionClosed, if_neg kept] at closed
  exact closed memoryId member

theorem DeletionClosed.kept (closed : DeletionClosed deleted collectionId)
    (parent_eq : collectionId.parentMemory = some parent) (parentKept : parent ∉ deleted) :
    collectionId.memoryId ∉ deleted := by
  intro lost
  rw [DeletionClosed, if_pos lost] at closed
  exact parentKept (closed parent parent_eq)

theorem MapEdgeOk.parentMemory {key : Value}
    {generation : UInt64} (edge : MapEdgeOk image parentId key generation childId) :
    childId.parentMemory = some parentId.memoryId := by
  simp [DurableCollectionId.parentMemory, edge.2.2]

theorem RowEdgeOk.parentMemory {row : StoredRow} (edge : RowEdgeOk image listMemoryId row childId) :
    childId.parentMemory = some listMemoryId := by
  rcases edge with ⟨_, route, owner, leaf⟩
  simp [DurableCollectionId.parentMemory, route, owner, leaf]

theorem mem_routeMemories_of_parentMemory (parent_eq : collectionId.parentMemory = some parent) :
    parent ∈ collectionId.routeMemories := by
  unfold parentMemory at parent_eq
  split at parent_eq
  case h_1 owner last =>
    cases parent_eq
    exact mem_append_right _ (mem_map_of_mem (mem_of_getLast? last))
  case h_2 =>
    rcases Option.map_eq_some_iff.mp parent_eq with ⟨row, last, rfl⟩
    exact mem_append_left _ (mem_map_of_mem (mem_of_getLast? last))

theorem parentMemory_of_mem_map_references (graph : GraphOk image)
    (found : image.maps[parentId]? = some map) (reference : collectionId ∈ map.references) :
    image.hasOneCollection collectionId = true ∧
      collectionId.parentMemory = some parentId.memoryId := by
  rcases mem_flatMap.mp reference with ⟨_, pairMember, child⟩
  rcases graph.mapEdges parentId map found _ _ (mem_toList_iff.mp pairMember) with
    ⟨_, _, edges⟩
  have edge := edges collectionId (StoredValueShell.mem_children.mp child)
  exact ⟨edge.1, edge.parentMemory⟩

theorem parentMemory_of_mem_list_references (graph : GraphOk image)
    (found : image.lists[listMemoryId]? = some list) (reference : collectionId ∈ list.references) :
    image.hasOneCollection collectionId = true ∧ collectionId.parentMemory = some listMemoryId := by
  rcases mem_flatMap.mp reference with ⟨row, rowMember, reference⟩
  rcases mem_flatMap.mp reference with ⟨_, fieldMember, child⟩
  have edge := graph.rowEdges listMemoryId list found row rowMember _ _
    (mem_toList_iff.mp fieldMember) collectionId (StoredValueShell.mem_children.mp child)
  exact ⟨edge.1, edge.parentMemory⟩

theorem count_references_without (graph : GraphOk image)
    (parentKept : ∀ parent, collectionId.parentMemory = some parent → parent ∉ deleted) :
    (image.without deleted).references.count collectionId =
      image.references.count collectionId := by
  unfold references without
  rw [count_append, count_append, ExtTreeMap.toList_filter, ExtTreeMap.toList_filter]
  congr 1
  · apply count_flatMap_filter
    intro entry member dropped reference
    have found := mem_toList_iff.mp member
    have kept := parentKept _ (parentMemory_of_mem_map_references graph found reference).2
    simp [kept] at dropped
  · apply count_flatMap_filter
    intro entry member dropped reference
    have found := mem_toList_iff.mp member
    have kept := parentKept _ (parentMemory_of_mem_list_references graph found reference).2
    simp [kept] at dropped

theorem parent_of_mem_references_without (graph : GraphOk image)
    (member : collectionId ∈ (image.without deleted).references) :
    collectionId ∈ image.collections ∧
      ∃ parent, collectionId.parentMemory = some parent ∧ parent ∉ deleted := by
  rw [references, mem_append, mem_flatMap, mem_flatMap] at member
  rcases member with ⟨entry, entryMember, reference⟩ | ⟨entry, entryMember, reference⟩
  · rcases without_maps_eq_some_iff.mp (mem_toList_iff.mp entryMember) with ⟨kept, found⟩
    rcases parentMemory_of_mem_map_references graph found reference with ⟨one, parent_eq⟩
    exact ⟨mem_collections_iff.mpr (mem_of_hasOneCollection one), _, parent_eq, kept⟩
  · rcases without_lists_eq_some_iff.mp (mem_toList_iff.mp entryMember) with ⟨kept, found⟩
    rcases parentMemory_of_mem_list_references graph found reference with ⟨one, parent_eq⟩
    exact ⟨mem_collections_iff.mpr (mem_of_hasOneCollection one), _, parent_eq, kept⟩

theorem hasOneCollection_congr {other : RestoreImage}
    (maps : collectionId ∈ image.maps ↔ collectionId ∈ other.maps)
    (sets : collectionId ∈ image.sets ↔ collectionId ∈ other.sets) :
    image.hasOneCollection collectionId = other.hasOneCollection collectionId := by
  simp only [← ExtTreeMap.contains_iff_mem, ← Bool.eq_iff_iff] at maps sets
  rw [hasOneCollection, maps, sets, hasOneCollection]

theorem hasOneCollection_without (kept : collectionId.memoryId ∉ deleted) :
    (image.without deleted).hasOneCollection collectionId =
      image.hasOneCollection collectionId := by
  apply hasOneCollection_congr
  · rw [mem_without_maps_iff, and_iff_right kept]
  · rw [mem_without_sets_iff, and_iff_right kept]

/-- A closed deletion keeps the graph well attached. -/
theorem GraphOk.without (graph : GraphOk image)
    (closed : ∀ collectionId ∈ image.collections, DeletionClosed deleted collectionId) :
    GraphOk (image.without deleted) := by
  have inImage : ∀ {collectionId}, collectionId ∈ (image.without deleted).maps ∨
      collectionId ∈ (image.without deleted).sets → collectionId.memoryId ∉ deleted ∧
        (collectionId ∈ image.maps ∨ collectionId ∈ image.sets) := by
    intro collectionId member
    rw [mem_without_maps_iff, mem_without_sets_iff, ← and_or_left] at member
    exact member
  have closedOf : ∀ {collectionId}, collectionId ∈ image.maps ∨ collectionId ∈ image.sets →
      DeletionClosed deleted collectionId :=
    fun member => closed _ (mem_collections_iff.mpr member)
  constructor
  case maps => exact fun id map found => graph.maps id map (without_maps_eq_some_iff.mp found).2
  case sets => exact fun id set found => graph.sets id set (without_sets_eq_some_iff.mp found).2
  case ownerRoutes =>
    intro id member depth ownerRow found
    rcases inImage member with ⟨kept, before⟩
    rcases graph.ownerRoutes id before depth ownerRow found with
      ⟨list, row, listFound, rowFound, same⟩
    have listKept : ownerRow.listMemoryId ∉ deleted := by
      apply (closedOf before).route kept
      exact mem_append_left _ (mem_map_of_mem (mem_of_getElem? found))
    exact ⟨list, row, without_lists_eq_some_iff.mpr ⟨listKept, listFound⟩, rowFound, same⟩
  case collectionRoutes =>
    intro id member depth owner found
    rcases inImage member with ⟨kept, before⟩
    rcases graph.collectionRoutes id before depth owner found with ⟨parent, parentFound, rest⟩
    have parentKept : owner.parentMemoryId ∉ deleted := by
      apply (closedOf before).route kept
      exact mem_append_right _ (mem_map_of_mem (mem_of_getElem? found))
    exact ⟨parent, without_maps_eq_some_iff.mpr ⟨parentKept, parentFound⟩, rest⟩
  case mapEdges =>
    intro id map found key shell entry
    rcases without_maps_eq_some_iff.mp found with ⟨kept, before⟩
    rcases graph.mapEdges id map before key shell entry with ⟨generation, generation_eq, edges⟩
    refine ⟨generation, generation_eq, fun childId child => ?_⟩
    have edge := edges childId child
    have childKept := (closedOf (mem_of_hasOneCollection edge.1)).kept edge.parentMemory kept
    exact ⟨(hasOneCollection_without childKept).trans edge.1, edge.2⟩
  case rowEdges =>
    intro id list found row rowMember field shell entry childId child
    rcases without_lists_eq_some_iff.mp found with ⟨kept, before⟩
    have edge := graph.rowEdges id list before row rowMember field shell entry childId child
    have childKept := (closedOf (mem_of_hasOneCollection edge.1)).kept edge.parentMemory kept
    exact ⟨(hasOneCollection_without childKept).trans edge.1, edge.2⟩
  case attached =>
    intro id member
    rcases inImage member with ⟨kept, before⟩
    rw [count_references_without graph fun parent parent_eq =>
      (closedOf before).route kept (mem_routeMemories_of_parentMemory parent_eq)]
    exact graph.attached id before

end Without

end BoonCircuit.Persistence
