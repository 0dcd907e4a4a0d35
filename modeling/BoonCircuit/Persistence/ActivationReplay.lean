import BoonCircuit.Persistence.ActivationDiff
import BoonCircuit.Persistence.ImageInvariant

/-!
# Replaying an activation batch

An activation batch between two images lays the candidate over the current image,
validates the graph of this overlay, and then drops the memories that the
candidate lacks.  The result is the candidate exactly when no memory changes its
kind, collection instances only disappear with their memory, and whatever is
dropped last is still well attached inside the overlay.
-/

namespace BoonCircuit.Persistence

open Data Lib Checks BTreeMap RestoreImage DurableCollectionId Std List ActivationBatch

/-- The image does not use the memory at all. -/
def RestoreImage.Lacks (image : RestoreImage) (memoryId : MemoryId) : Prop :=
  ∀ kind, ¬ image.Uses memoryId kind

section Replay

variable {current candidate : RestoreImage}

variable {image : RestoreImage} {memoryId : MemoryId} {kind : AuthorityKind}
  {collectionId : DurableCollectionId}

theorem hasMemory_iff : image.hasMemory memoryId = true ↔ ¬ image.Lacks memoryId := by
  simp only [hasMemory, Bool.or_eq_true, contains_scalar_iff, contains_list_iff,
    hasMapMemory_iff, hasSetMemory_iff, Lacks, not_forall, not_not]
  constructor
  · rintro (((used | used) | used) | used) <;> exact ⟨_, used⟩
  · rintro ⟨kind, used⟩
    cases kind with
    | scalar => exact .inl (.inl (.inl used))
    | list => exact .inl (.inl (.inr used))
    | map => exact .inl (.inr used)
    | set => exact .inr used

theorem mem_deletedBetween_iff :
    memoryId ∈ deletedBetween current candidate ↔
      ¬ current.Lacks memoryId ∧ candidate.Lacks memoryId := by
  have uses : memoryId ∈ current.scalars.keys ++ current.lists.keys ++
      current.maps.keys.map DurableCollectionId.memoryId ++
      current.sets.keys.map DurableCollectionId.memoryId ↔ ¬ current.Lacks memoryId := by
    rw [← hasMemory_iff]
    simp [hasMemory, hasMapMemory_iff, hasSetMemory_iff, Uses, or_assoc]
  have lacks : (!candidate.hasMemory memoryId) = true ↔ candidate.Lacks memoryId := by
    rw [Bool.not_eq_true', ← Bool.not_eq_true, hasMemory_iff, not_not]
  rw [deletedBetween, ExtTreeSet.mem_toList, ExtTreeSet.mem_ofList, contains_iff_mem,
    mem_filter, uses, lacks]

theorem not_mem_deletedBetween
    (used : candidate.Uses memoryId kind) : memoryId ∉ deletedBetween current candidate :=
  fun deleted => (mem_deletedBetween_iff.mp deleted).2 kind used

theorem not_mem_deletedBetween_iff (used : current.Uses memoryId kind) :
    memoryId ∉ deletedBetween current candidate ↔ ¬ candidate.Lacks memoryId := by
  rw [mem_deletedBetween_iff, not_and]
  exact ⟨fun kept => kept fun lacks => lacks kind used, fun present _ => present⟩

/-- Map and set instances only disappear together with their memory. -/
def InstancesKept (current candidate : RestoreImage) : Prop :=
  ∀ collectionId ∈ current.collections, ¬ candidate.Lacks collectionId.memoryId →
    collectionId ∈ candidate.collections

theorem KindsAgree.uses (agree : KindsAgree current candidate) (used : current.Uses memoryId kind)
    (present : ¬ candidate.Lacks memoryId) : candidate.Uses memoryId kind := by
  simp only [Lacks, not_forall, not_not] at present
  rcases present with ⟨other, usedOther⟩
  rw [agree memoryId kind other used usedOther]
  exact usedOther

theorem KindsAgree.mem_maps
    (agree : KindsAgree current candidate) (inCurrent : collectionId ∈ current.maps)
    (member : collectionId ∈ candidate.collections) : collectionId ∈ candidate.maps := by
  rcases mem_collections_iff.mp member with inMaps | inSets
  · exact inMaps
  · have usedMap : current.Uses collectionId.memoryId .map := ⟨_, inCurrent, rfl⟩
    have usedSet : candidate.Uses collectionId.memoryId .set := ⟨_, inSets, rfl⟩
    cases agree _ _ _ usedMap usedSet

theorem KindsAgree.mem_sets
    (agree : KindsAgree current candidate) (inCurrent : collectionId ∈ current.sets)
    (member : collectionId ∈ candidate.collections) : collectionId ∈ candidate.sets := by
  rcases mem_collections_iff.mp member with inMaps | inSets
  · have usedSet : current.Uses collectionId.memoryId .set := ⟨_, inCurrent, rfl⟩
    have usedMap : candidate.Uses collectionId.memoryId .map := ⟨_, inMaps, rfl⟩
    cases agree _ _ _ usedSet usedMap
  · exact inSets

variable (current candidate) in
/-- The overlay after the dropped memories are gone. -/
def replayed : RestoreImage :=
  (current.overlay candidate).without (deletedBetween current candidate)

private theorem replayed_iff {κ ν : Type} [Ord κ] [TransOrd κ] [LawfulEqOrd κ] [DecidableEq κ]
    [DecidableEq ν] {before after : BTreeMap κ ν} (memory : κ → MemoryId) (kind : AuthorityKind)
    (usedBefore : ∀ key ∈ before, current.Uses (memory key) kind)
    (usedAfter : ∀ key ∈ after, candidate.Uses (memory key) kind) :
    ((before.writeAll (changed before after)).filter fun key _ =>
        decide (memory key ∉ deletedBetween current candidate)) = after ↔
      ∀ key ∈ before, ¬ candidate.Lacks (memory key) → key ∈ after := by
  refine (filter_writeAll_eq_iff (fun key => decide (memory key ∉ deletedBetween current candidate))
    fun key bound => ?_).trans (forall₂_congr fun key bound => ?_)
  · exact decide_eq_true (not_mem_deletedBetween (usedAfter key bound))
  · rw [decide_eq_true_iff, not_mem_deletedBetween_iff (usedBefore key bound)]

section Agree

variable (agree : KindsAgree current candidate)

include agree

theorem replayed_scalars : (replayed current candidate).scalars = candidate.scalars :=
  (replayed_iff id .scalar (fun _ => id) fun _ => id).mpr fun memoryId bound =>
    agree.uses (show current.Uses memoryId .scalar from bound)

theorem replayed_lists : (replayed current candidate).lists = candidate.lists :=
  (replayed_iff id .list (fun _ => id) fun _ => id).mpr fun memoryId bound =>
    agree.uses (show current.Uses memoryId .list from bound)

omit agree in
theorem replayed_maps_iff :
    (replayed current candidate).maps = candidate.maps ↔
      ∀ collectionId ∈ current.maps, ¬ candidate.Lacks collectionId.memoryId →
        collectionId ∈ candidate.maps :=
  replayed_iff memoryId .map (fun _ bound => ⟨_, bound, rfl⟩) fun _ bound => ⟨_, bound, rfl⟩

omit agree in
theorem replayed_sets_iff :
    (replayed current candidate).sets = candidate.sets ↔
      ∀ collectionId ∈ current.sets, ¬ candidate.Lacks collectionId.memoryId →
        collectionId ∈ candidate.sets :=
  replayed_iff memoryId .set (fun _ bound => ⟨_, bound, rfl⟩) fun _ bound => ⟨_, bound, rfl⟩

/-- The result has the candidate's instances exactly when instances are kept. -/
theorem instancesKept_iff :
    (replayed current candidate).maps = candidate.maps ∧
        (replayed current candidate).sets = candidate.sets ↔
      InstancesKept current candidate := by
  rw [replayed_maps_iff, replayed_sets_iff]
  constructor
  · rintro ⟨maps, sets⟩ collectionId member present
    rw [mem_collections_iff] at member ⊢
    rcases member with inMaps | inSets
    · exact .inl (maps collectionId inMaps present)
    · exact .inr (sets collectionId inSets present)
  · intro kept
    constructor
    · intro collectionId inMaps present
      exact agree.mem_maps inMaps (kept _ (mem_collections_iff.mpr (.inl inMaps)) present)
    · intro collectionId inSets present
      exact agree.mem_sets inSets (kept _ (mem_collections_iff.mpr (.inr inSets)) present)

omit agree in
theorem GraphOk.parent_present {parent : MemoryId} (graph : GraphOk image)
    (member : collectionId ∈ image.collections)
    (parent_eq : collectionId.parentMemory = some parent) : ¬ image.Lacks parent := by
  intro lacks
  have member := mem_collections_iff.mp member
  unfold parentMemory at parent_eq
  split at parent_eq
  case h_1 owner last =>
    cases parent_eq
    rw [getLast?_eq_getElem?] at last
    rcases graph.collectionRoutes collectionId member _ owner last with ⟨map, found, _⟩
    exact lacks .map ⟨_, mem_iff_exists.mpr ⟨map, found⟩, rfl⟩
  case h_2 =>
    rcases Option.map_eq_some_iff.mp parent_eq with ⟨row, last, rfl⟩
    rw [getLast?_eq_getElem?] at last
    rcases graph.ownerRoutes collectionId member _ row last with ⟨list, _, found, _⟩
    exact lacks .list (mem_iff_exists.mpr ⟨list, found⟩)

theorem overlay_lists_eq_some_iff {list : StoredList} :
    (current.overlay candidate).lists[memoryId]? = some list ↔
      candidate.lists[memoryId]? = some list ∨
        candidate.Lacks memoryId ∧ current.lists[memoryId]? = some list := by
  apply getElem?_writeAll_eq_some_iff candidate.Lacks
  · exact fun memoryId bound lacks => lacks .list bound
  · intro memoryId bound present
    have used : current.Uses memoryId .list := bound
    exact agree.uses used present

theorem overlay_maps_eq_some_iff {map : StoredMap} (kept : InstancesKept current candidate) :
    (current.overlay candidate).maps[collectionId]? = some map ↔
      candidate.maps[collectionId]? = some map ∨
        candidate.Lacks collectionId.memoryId ∧ current.maps[collectionId]? = some map := by
  apply getElem?_writeAll_eq_some_iff fun id : DurableCollectionId =>
    candidate.Lacks id.memoryId
  · exact fun collectionId bound lacks => lacks .map ⟨collectionId, bound, rfl⟩
  · intro collectionId bound present
    exact agree.mem_maps bound (kept _ (mem_collections_iff.mpr (.inl bound)) present)

theorem overlay_sets_eq_some_iff {set : StoredSet} (kept : InstancesKept current candidate) :
    (current.overlay candidate).sets[collectionId]? = some set ↔
      candidate.sets[collectionId]? = some set ∨
        candidate.Lacks collectionId.memoryId ∧ current.sets[collectionId]? = some set := by
  apply getElem?_writeAll_eq_some_iff fun id : DurableCollectionId =>
    candidate.Lacks id.memoryId
  · exact fun collectionId bound lacks => lacks .set ⟨collectionId, bound, rfl⟩
  · intro collectionId bound present
    exact agree.mem_sets bound (kept _ (mem_collections_iff.mpr (.inr bound)) present)

end Agree

variable (current candidate) in
/-- The part of the current image whose memories are dropped. -/
def droppedPart : RestoreImage :=
  current.without (candidate.authorityUses.map Prod.fst)

theorem not_mem_authorityUses_iff :
    memoryId ∉ candidate.authorityUses.map Prod.fst ↔ candidate.Lacks memoryId := by
  rw [mem_map, not_exists]
  constructor
  · intro unused kind used
    exact unused (memoryId, kind) ⟨mem_authorityUses_iff.mpr used, rfl⟩
  · rintro lacks ⟨_, kind⟩ ⟨used, rfl⟩
    exact lacks kind (mem_authorityUses_iff.mp used)

/-- The overlay makes the references of the candidate and of the dropped part. -/
theorem count_references_overlay (agree : KindsAgree current candidate)
    (kept : InstancesKept current candidate) :
    (current.overlay candidate).references.count collectionId =
      candidate.references.count collectionId +
        (droppedPart current candidate).references.count collectionId := by
  have maps : (current.overlay candidate).maps.toList.Perm
      (candidate.maps.toList ++ (droppedPart current candidate).maps.toList) := by
    apply toList_perm_append
    · intro key value
      rw [overlay_maps_eq_some_iff agree kept, droppedPart, without_maps_eq_some_iff,
        not_mem_authorityUses_iff]
    · intro key inCandidate inDropped
      have lacks := not_mem_authorityUses_iff.mp (mem_without_maps_iff.mp inDropped).1
      exact lacks .map ⟨key, inCandidate, rfl⟩
  have lists : (current.overlay candidate).lists.toList.Perm
      (candidate.lists.toList ++ (droppedPart current candidate).lists.toList) := by
    apply toList_perm_append
    · intro key value
      rw [overlay_lists_eq_some_iff agree, droppedPart, without_lists_eq_some_iff,
        not_mem_authorityUses_iff]
    · intro key inCandidate inDropped
      rcases mem_iff_exists.mp inDropped with ⟨list, found⟩
      have lacks := not_mem_authorityUses_iff.mp (without_lists_eq_some_iff.mp found).1
      exact lacks .list inCandidate
  have mapCount := (maps.flatMap_right fun entry => entry.2.references).count_eq collectionId
  have listCount := (lists.flatMap_right fun entry => entry.2.references).count_eq collectionId
  rw [flatMap_append] at mapCount listCount
  simp only [references, count_append, mapCount, listCount]
  omega

/-- A dropped collection loses its parent too. -/
def ParentsDropped (current candidate : RestoreImage) : Prop :=
  ∀ collectionId ∈ current.collections, candidate.Lacks collectionId.memoryId →
    ∀ parent, collectionId.parentMemory = some parent → candidate.Lacks parent

/-- The rows that own a dropped collection are unchanged in the lists that stay. -/
def OwnerRowsKept (current candidate : RestoreImage) : Prop :=
  ∀ collectionId ∈ current.collections, candidate.Lacks collectionId.memoryId →
    ∀ depth ownerRow, collectionId.owner.ancestors[depth]? = some ownerRow →
    ∀ list, candidate.lists[ownerRow.listMemoryId]? = some list →
      ∃ row, list.rowAt ownerRow.rowKey ownerRow.rowGeneration = some row ∧
        row.owner.ancestors = collectionId.owner.ancestors.take (depth + 1)

theorem ParentsDropped.ancestor (parents : ParentsDropped current candidate)
    (graph : GraphOk current) :
    ∀ {count : Nat} {collectionId : DurableCollectionId},
      collectionId.collectionAncestors.length = count → collectionId ∈ current.collections →
      candidate.Lacks collectionId.memoryId → ∀ {depth : Nat} {owner : DurableCollectionOwner},
      collectionId.collectionAncestors[depth]? = some owner →
      candidate.Lacks owner.parentMemoryId := by
  intro count
  -- The last step of the route is the parent; the steps before it are the parent's route.
  induction count with
  | zero =>
    intro collectionId length member lacks depth owner found
    rw [length_eq_zero_iff.mp length] at found
    cases found
  | succ count ih =>
    intro collectionId length member lacks depth owner found
    have bound : count < collectionId.collectionAncestors.length := by omega
    have last := getElem?_eq_getElem bound
    generalize collectionId.collectionAncestors[count] = parent at last
    have parent_eq : collectionId.parentMemory = some parent.parentMemoryId := by
      rw [parentMemory, getLast?_eq_getElem?, length, Nat.add_sub_cancel, last]
    have parentLacks := parents collectionId member lacks _ parent_eq
    rcases graph.collectionRoutes collectionId (mem_collections_iff.mp member) count parent last
      with ⟨map, mapFound, _⟩
    by_cases here : depth = count
    · subst here
      cases last.symm.trans found
      exact parentLacks
    · have before : depth < count := by
        have := (List.getElem?_eq_some_iff.mp found).1
        omega
      have parentLength :
          (collectionId.parentAt count parent).collectionAncestors.length = count := by
        rw [parentAt, length_take]
        omega
      have parentMember : collectionId.parentAt count parent ∈ current.collections :=
        mem_collections_iff.mpr (.inl (mem_iff_exists.mpr ⟨map, mapFound⟩))
      have parentStep :
          (collectionId.parentAt count parent).collectionAncestors[depth]? = some owner := by
        rw [parentAt, getElem?_take_of_lt before]
        exact found
      exact ih parentLength parentMember parentLacks parentStep

theorem expectedAttachments_of_parentMemory {parent : MemoryId}
    (parent_eq : collectionId.parentMemory = some parent) :
    collectionId.expectedAttachments = 1 := by
  apply if_pos
  by_contra root
  rw [not_or, not_not, not_not] at root
  rw [parentMemory, root.1, root.2] at parent_eq
  cases parent_eq

section Overlay

variable (agree : KindsAgree current candidate) (kept : InstancesKept current candidate)
  (currentGraph : GraphOk current) (candidateGraph : GraphOk candidate)

include agree kept

variable {collectionId : DurableCollectionId}

theorem mem_overlay_collections_iff :
    collectionId ∈ (current.overlay candidate).maps ∨
        collectionId ∈ (current.overlay candidate).sets ↔
      collectionId ∈ candidate.collections ∨
        candidate.Lacks collectionId.memoryId ∧ collectionId ∈ current.collections := by
  simp only [mem_collections_iff, mem_iff_exists, overlay_maps_eq_some_iff agree kept,
    overlay_sets_eq_some_iff agree kept, exists_or, exists_and_left]
  tauto

omit agree kept in
theorem present_of_mem_collections
    (member : collectionId ∈ image.collections) : ¬ image.Lacks collectionId.memoryId := by
  intro lacks
  rcases mem_collections_iff.mp member with inMaps | inSets
  · exact lacks .map ⟨collectionId, inMaps, rfl⟩
  · exact lacks .set ⟨collectionId, inSets, rfl⟩

include candidateGraph

omit agree in
theorem child_dropped {parent : MemoryId} (member : collectionId ∈ current.collections)
    (parent_eq : collectionId.parentMemory = some parent) (lacks : candidate.Lacks parent) :
    candidate.Lacks collectionId.memoryId := by
  by_contra present
  exact candidateGraph.parent_present (kept collectionId member present) parent_eq lacks

omit candidateGraph in
theorem hasOneCollection_of_candidate (one : candidate.hasOneCollection collectionId = true) :
    (current.overlay candidate).hasOneCollection collectionId = true := by
  have present := present_of_mem_collections (mem_collections_iff.mpr (mem_of_hasOneCollection one))
  rw [← one]
  apply hasOneCollection_congr
  · simp [mem_iff_exists, overlay_maps_eq_some_iff agree kept, present]
  · simp [mem_iff_exists, overlay_sets_eq_some_iff agree kept, present]

theorem hasOneCollection_of_current {parent : MemoryId}
    (one : current.hasOneCollection collectionId = true)
    (parent_eq : collectionId.parentMemory = some parent) (parentLacks : candidate.Lacks parent) :
    (current.overlay candidate).hasOneCollection collectionId = true := by
  have lacks := child_dropped kept candidateGraph
    (mem_collections_iff.mpr (mem_of_hasOneCollection one)) parent_eq parentLacks
  have noMap : ∀ map, candidate.maps[collectionId]? ≠ some map := fun map found =>
    lacks .map ⟨collectionId, mem_iff_exists.mpr ⟨map, found⟩, rfl⟩
  have noSet : ∀ set, candidate.sets[collectionId]? ≠ some set := fun set found =>
    lacks .set ⟨collectionId, mem_iff_exists.mpr ⟨set, found⟩, rfl⟩
  rw [← one]
  apply hasOneCollection_congr
  · simp [mem_iff_exists, overlay_maps_eq_some_iff agree kept, lacks, noMap]
  · simp [mem_iff_exists, overlay_sets_eq_some_iff agree kept, lacks, noSet]

omit agree kept in
theorem not_mem_references_of_lacks
    (lacks : candidate.Lacks collectionId.memoryId) : collectionId ∉ candidate.references := by
  intro member
  have whole : candidate.without [] = candidate := foldl_deleteMemory.symm
  rw [← whole] at member
  exact present_of_mem_collections (parent_of_mem_references_without candidateGraph member).1 lacks

include currentGraph

omit agree in
/-- The dropped part makes no reference to a collection of the candidate. -/
theorem not_mem_droppedPart_references (present : ¬ candidate.Lacks collectionId.memoryId) :
    collectionId ∉ (droppedPart current candidate).references := by
  intro member
  rcases parent_of_mem_references_without currentGraph member with
    ⟨inCurrent, _, parent_eq, dropped⟩
  exact present (child_dropped kept candidateGraph inCurrent parent_eq
    (not_mem_authorityUses_iff.mp dropped))

/-- The overlay is well attached when dropped collections lose their parents and keep their
owner rows. -/
theorem graphOk_overlay (parents : ParentsDropped current candidate)
    (rows : OwnerRowsKept current candidate) : GraphOk (current.overlay candidate) := by
  constructor
  case maps =>
    intro id map found
    rcases (overlay_maps_eq_some_iff agree kept).mp found with inCandidate | ⟨_, inCurrent⟩
    · exact candidateGraph.maps id map inCandidate
    · exact currentGraph.maps id map inCurrent
  case sets =>
    intro id set found
    rcases (overlay_sets_eq_some_iff agree kept).mp found with inCandidate | ⟨_, inCurrent⟩
    · exact candidateGraph.sets id set inCandidate
    · exact currentGraph.sets id set inCurrent
  case ownerRoutes =>
    intro id member depth ownerRow found
    rcases (mem_overlay_collections_iff agree kept).mp member with inCandidate | ⟨lacks, inCurrent⟩
    · rcases candidateGraph.ownerRoutes id (mem_collections_iff.mp inCandidate) depth ownerRow found
        with ⟨list, row, listFound, rest⟩
      exact ⟨list, row, (overlay_lists_eq_some_iff agree).mpr (.inl listFound), rest⟩
    · rcases currentGraph.ownerRoutes id (mem_collections_iff.mp inCurrent) depth ownerRow found
        with ⟨list, row, listFound, rest⟩
      by_cases listLacks : candidate.Lacks ownerRow.listMemoryId
      · exact ⟨list, row, (overlay_lists_eq_some_iff agree).mpr (.inr ⟨listLacks, listFound⟩), rest⟩
      · have used : current.Uses ownerRow.listMemoryId .list :=
          mem_iff_exists.mpr ⟨list, listFound⟩
        rcases mem_iff_exists.mp (agree.uses used listLacks) with ⟨kept, keptFound⟩
        rcases rows id inCurrent lacks depth ownerRow found kept keptFound with ⟨row, rest⟩
        exact ⟨kept, row, (overlay_lists_eq_some_iff agree).mpr (.inl keptFound), rest⟩
  case collectionRoutes =>
    intro id member depth owner found
    rcases (mem_overlay_collections_iff agree kept).mp member with inCandidate | ⟨lacks, inCurrent⟩
    · rcases candidateGraph.collectionRoutes id
        (mem_collections_iff.mp inCandidate) depth owner found
        with ⟨map, mapFound, rest⟩
      exact ⟨map, (overlay_maps_eq_some_iff agree kept).mpr (.inl mapFound), rest⟩
    · rcases currentGraph.collectionRoutes id (mem_collections_iff.mp inCurrent) depth owner found
        with ⟨map, mapFound, rest⟩
      have parentLacks := parents.ancestor currentGraph rfl inCurrent lacks found
      exact ⟨map, (overlay_maps_eq_some_iff agree kept).mpr (.inr ⟨parentLacks, mapFound⟩), rest⟩
  case mapEdges =>
    intro id map found key shell entry
    rcases (overlay_maps_eq_some_iff agree kept).mp found with inCandidate | ⟨lacks, inCurrent⟩
    · rcases candidateGraph.mapEdges id map inCandidate key shell entry with
        ⟨generation, generation_eq, edges⟩
      refine ⟨generation, generation_eq, fun childId child => ?_⟩
      have edge := edges childId child
      exact ⟨hasOneCollection_of_candidate agree kept edge.1, edge.2⟩
    · rcases currentGraph.mapEdges id map inCurrent key shell entry with
        ⟨generation, generation_eq, edges⟩
      refine ⟨generation, generation_eq, fun childId child => ?_⟩
      have edge := edges childId child
      exact ⟨hasOneCollection_of_current agree kept candidateGraph edge.1 edge.parentMemory lacks,
        edge.2⟩
  case rowEdges =>
    intro id list found row rowMember field shell entry childId child
    rcases (overlay_lists_eq_some_iff agree).mp found with inCandidate | ⟨lacks, inCurrent⟩
    · have edge := candidateGraph.rowEdges id list inCandidate row rowMember field shell entry
        childId child
      exact ⟨hasOneCollection_of_candidate agree kept edge.1, edge.2⟩
    · have edge := currentGraph.rowEdges id list inCurrent row rowMember field shell entry
        childId child
      exact ⟨hasOneCollection_of_current agree kept candidateGraph edge.1 edge.parentMemory lacks,
        edge.2⟩
  case attached =>
    intro id member
    rw [count_references_overlay agree kept]
    rcases (mem_overlay_collections_iff agree kept).mp member with inCandidate | ⟨lacks, inCurrent⟩
    · have none := not_mem_droppedPart_references kept currentGraph candidateGraph
        (present_of_mem_collections inCandidate)
      rw [count_eq_zero.mpr none]
      exact candidateGraph.attached id (mem_collections_iff.mp inCandidate)
    · have none := not_mem_references_of_lacks candidateGraph lacks
      have counted : (droppedPart current candidate).references.count id =
          current.references.count id :=
        count_references_without currentGraph fun parent parent_eq =>
          not_mem_authorityUses_iff.mpr (parents id inCurrent lacks parent parent_eq)
      rw [count_eq_zero.mpr none, Nat.zero_add, counted]
      exact currentGraph.attached id (mem_collections_iff.mp inCurrent)

/-- In a well-attached overlay dropped collections lose their parents. -/
theorem parentsDropped_of_graphOk (graph : GraphOk (current.overlay candidate)) :
    ParentsDropped current candidate := by
  intro id inCurrent lacks parent parent_eq
  have nested : id.expectedAttachments = 1 := expectedAttachments_of_parentMemory parent_eq
  have counted := graph.attached id
    ((mem_overlay_collections_iff agree kept).mpr (.inr ⟨lacks, inCurrent⟩))
  have none := not_mem_references_of_lacks candidateGraph lacks
  rw [count_references_overlay agree kept, count_eq_zero.mpr none, Nat.zero_add, nested] at counted
  have referred : id ∈ (droppedPart current candidate).references := by
    apply count_pos_iff.mp
    rw [counted]
    decide
  rcases parent_of_mem_references_without currentGraph referred with ⟨_, _, other_eq, dropped⟩
  cases parent_eq.symm.trans other_eq
  exact not_mem_authorityUses_iff.mp dropped

omit currentGraph candidateGraph in
theorem ownerRowsKept_of_graphOk (graph : GraphOk (current.overlay candidate)) :
    OwnerRowsKept current candidate := by
  intro id inCurrent lacks depth ownerRow found list listFound
  rcases graph.ownerRoutes id ((mem_overlay_collections_iff agree kept).mpr
    (.inr ⟨lacks, inCurrent⟩)) depth ownerRow found with ⟨_, row, otherFound, rest⟩
  have inOverlay := (overlay_lists_eq_some_iff agree).mpr (.inl listFound)
  cases inOverlay.symm.trans otherFound
  exact ⟨row, rest⟩

end Overlay

/-- When an activation batch reproduces its candidate. -/
structure Replayable (current candidate : RestoreImage) : Prop where
  kinds : KindsAgree current candidate
  instances : InstancesKept current candidate
  parents : ParentsDropped current candidate
  rows : OwnerRowsKept current candidate

/-- An image that passes the validations of lists, graph, kinds and outbox. -/
structure WellFormed (sha256 : List UInt8 → Digest) (image : RestoreImage) : Prop where
  lists : ∀ memoryId list, image.lists[memoryId]? = some list → validateList memoryId list = .ok ()
  graph : validateCollectionAuthorityGraph image = .ok ()
  kinds : validateAuthorityKindsDisjoint image = .ok ()
  outbox : validateOutbox sha256 image.outbox = .ok ()

/-- The replayed stores are accepted, and leave a well-attached graph, exactly for agreeing
kinds and a well-attached overlay. -/
theorem applyChanges_authorityDiff {next : RestoreImage} (currentKinds : KindsOk current)
    (candidateKinds : KindsOk candidate) (lists : ListsOk candidate) (graph : GraphOk candidate) :
    applyChanges current (authorityDiff current candidate) = .ok next ↔
      KindsAgree current candidate ∧ GraphOk (current.overlay candidate) ∧
        next = current.overlay candidate := by
  rw [applyChanges_eq_ok_iff,
    foldlM_authorityDiff currentKinds candidateKinds lists graph.maps graph.sets,
    validateCollectionAuthorityGraph_eq_ok_iff]
  constructor
  · rintro ⟨⟨agree, rfl⟩, overlayOk⟩
    exact ⟨agree, overlayOk, rfl⟩
  · rintro ⟨agree, overlayOk, rfl⟩
    exact ⟨⟨agree, rfl⟩, overlayOk⟩

theorem saturatingSucc_of_ne {value : UInt64} (room : value ≠ 0xFFFFFFFFFFFFFFFF) :
    saturatingSucc value = value + 1 :=
  if_neg room

theorem completedMigrationEdges_between {before after : BTreeSet MigrationEdgeId}
    (grows : ∀ edge ∈ before, edge ∈ after) :
    (after.toList.filter fun edge => !before.contains edge).foldl (·.insert ·) before = after := by
  apply ExtTreeSet.ext_mem
  intro edge
  rw [BTreeSet.mem_foldl_insert, mem_filter, ExtTreeSet.mem_toList, Bool.not_eq_true',
    ← Bool.not_eq_true]
  constructor
  · rintro (old | ⟨new, _⟩)
    · exact grows edge old
    · exact new
  · intro member
    by_cases old : edge ∈ before
    · exact .inl old
    · exact .inr ⟨member, old⟩

variable {sha256 : List UInt8 → Digest}

variable (current candidate) in
/-- The image that the activation assembles from the replayed authorities and the batch. -/
def activatedBetween : RestoreImage :=
  let batch := unsealedBetween current candidate
  { replayed current candidate with
    outbox := current.outbox
    completedMigrationEdges :=
      batch.completedMigrationEdges.foldl (·.insert ·) current.completedMigrationEdges
    schemaVersion := batch.targetSchemaVersion
    schemaHash := batch.targetSchemaHash
    epoch := batch.nextEpoch
    throughTurnSequence := batch.throughTurnSequence
    contentArtifactManifest := batch.targetContentArtifactManifest }

theorem activatedBetween_eq (application_eq : current.application = candidate.application)
    (outbox_eq : current.outbox = candidate.outbox)
    (edges : ∀ edge ∈ current.completedMigrationEdges, edge ∈ candidate.completedMigrationEdges)
    (room : current.epoch ≠ 0xFFFFFFFFFFFFFFFF) :
    activatedBetween current candidate = { candidate with
      scalars := (replayed current candidate).scalars
      lists := (replayed current candidate).lists
      maps := (replayed current candidate).maps
      sets := (replayed current candidate).sets
      epoch := current.epoch + 1 } := by
  rw [← application_eq, ← outbox_eq, ← completedMigrationEdges_between edges,
    ← saturatingSucc_of_ne room]
  rfl

theorem validateActivation_between (version : candidate.schemaVersion ≠ 0)
    (manifestOk : validateContentArtifactManifest candidate.contentArtifactManifest = .ok ()) :
    validateActivation sha256
      (ActivationBatch.seal sha256 (.unsealedBetween current candidate)) = .ok () := by
  simp only [validateActivation, check_bind_eq_ok_iff, reject_eq_ok_iff, not_not,
    invalidAuthority_eq_ok_iff, forSome_eq_ok_iff]
  refine ⟨rfl, version, manifestOk, rfl, ?_⟩
  intro extra found
  cases found

theorem applyActivationToImage_between {batch : ActivationBatch}
    (currentOk : WellFormed sha256 current) (candidateOk : WellFormed sha256 candidate)
    (version : candidate.schemaVersion ≠ 0)
    (edges : ∀ edge ∈ current.completedMigrationEdges, edge ∈ candidate.completedMigrationEdges)
    (room : current.epoch ≠ 0xFFFFFFFFFFFFFFFF)
    (between_eq : ActivationBatch.between sha256 current candidate = .ok batch) :
    (∃ ack, applyActivationToImage sha256 current batch = .ok (image, ack)) ↔
      KindsAgree current candidate ∧ GraphOk (current.overlay candidate) ∧
        image = { candidate with
          scalars := (replayed current candidate).scalars
          lists := (replayed current candidate).lists
          maps := (replayed current candidate).maps
          sets := (replayed current candidate).sets
          epoch := current.epoch + 1 } := by
  simp only [ActivationBatch.between, bind_eq_ok_iff, pure_eq_ok_iff, reject_eq_ok_iff, not_not,
    invalidOutboxTransition, UInt64.not_lt] at between_eq
  rcases between_eq with
    ⟨_, application_eq, _, turns, _, _, _, _, _, _, _, manifestOk, _, _, _, outbox_eq, rfl⟩
  have valid : validateActivation sha256
      (ActivationBatch.seal sha256 (.unsealedBetween current candidate)) = .ok () :=
    validateActivation_between version manifestOk
  have changes_iff := fun next => @applyChanges_authorityDiff current candidate next
    (validateAuthorityKindsDisjoint_eq_ok_iff.mp currentOk.kinds)
    (validateAuthorityKindsDisjoint_eq_ok_iff.mp candidateOk.kinds) candidateOk.lists
    (validateCollectionAuthorityGraph_eq_ok_iff.mp candidateOk.graph)
  have result_eq := activatedBetween_eq application_eq outbox_eq edges room
  have epochs : ¬ (current.epoch ≠ current.epoch ∨
      saturatingSucc current.epoch ≠ current.epoch + 1) := by
    simp [saturatingSucc_of_ne room]
  simp only [applyActivationToImage, bind_eq_ok_iff, reject_eq_ok_iff, pure_eq_ok_iff,
    foldl_deleteMemory, Prod.mk.injEq]
  constructor
  · rintro ⟨ack, _, _, _, _, _, _, _, _, _, _, next, changed, outbox, outbox_step, _, _, rfl, _⟩
    rcases (changes_iff next).mp changed with ⟨agree, overlayOk, rfl⟩
    cases outbox_step
    exact ⟨agree, overlayOk, result_eq⟩
  · rintro ⟨agree, overlayOk, rfl⟩
    refine ⟨_, (), valid, (), not_not.mpr rfl, (), epochs, (), not_not.mpr rfl, (), ?_, _,
      (changes_iff _).mpr ⟨agree, overlayOk, rfl⟩, current.outbox, rfl, (), currentOk.outbox,
      result_eq, rfl⟩
    exact UInt64.not_lt.mpr turns

/-- The activation of a batch between two images yields the candidate, with the next epoch,
exactly for replayable pairs. -/
theorem between_replays_iff {batch : ActivationBatch} (currentOk : WellFormed sha256 current)
    (candidateOk : WellFormed sha256 candidate) (version : candidate.schemaVersion ≠ 0)
    (edges : ∀ edge ∈ current.completedMigrationEdges, edge ∈ candidate.completedMigrationEdges)
    (room : current.epoch ≠ 0xFFFFFFFFFFFFFFFF)
    (between_eq : between sha256 current candidate = .ok batch) :
    (∃ ack, applyActivationToImage sha256 current batch =
        .ok ({ candidate with epoch := current.epoch + 1 }, ack)) ↔
      Replayable current candidate := by
  have currentGraph := validateCollectionAuthorityGraph_eq_ok_iff.mp currentOk.graph
  have candidateGraph := validateCollectionAuthorityGraph_eq_ok_iff.mp candidateOk.graph
  rw [applyActivationToImage_between currentOk candidateOk version edges room between_eq]
  constructor
  · rintro ⟨agree, overlayOk, image_eq⟩
    have maps_eq := congrArg RestoreImage.maps image_eq
    have sets_eq := congrArg RestoreImage.sets image_eq
    have kept := (instancesKept_iff agree).mp ⟨maps_eq.symm, sets_eq.symm⟩
    exact ⟨agree, kept, parentsDropped_of_graphOk agree kept currentGraph candidateGraph overlayOk,
      ownerRowsKept_of_graphOk agree kept overlayOk⟩
  · rintro ⟨agree, kept, parents, rows⟩
    rcases (instancesKept_iff agree).mpr kept with ⟨maps_eq, sets_eq⟩
    refine ⟨agree, graphOk_overlay agree kept currentGraph candidateGraph parents rows, ?_⟩
    rw [replayed_scalars agree, replayed_lists agree, maps_eq, sets_eq]

end Replay

/-- An image whose only authority is a scalar. -/
def scalarImage : RestoreImage :=
  { empty sampleApplication 1 (Digest.ofByte 7) with
    scalars := .ofList [(Digest.ofByte 1, ⟨true, .text "name"⟩)] compare }

/-- An image whose only authority is a list without rows, in the memory of that scalar. -/
def emptyListImage : RestoreImage :=
  ownedSetsImage []

/-- Whether the batch between two images exists and its activation is refused. -/
def betweenIsRefused (current candidate : RestoreImage) : Bool :=
  match between zeroHash current candidate with
  | .ok batch => !(applyActivationToImage zeroHash current batch).isOk
  | .error _ => false

instance (sha256 : List UInt8 → Digest) (image : RestoreImage) :
    Decidable (WellFormed sha256 image) :=
  decidable_of_iff
    ((forM image.lists.toList fun entry => validateList entry.1 entry.2) = .ok () ∧
      validateCollectionAuthorityGraph image = .ok () ∧
      validateAuthorityKindsDisjoint image = .ok () ∧ validateOutbox sha256 image.outbox = .ok ())
    (by
      rw [forM_eq_ok_iff, forall_mem_toList]
      exact ⟨fun ⟨lists, graph, kinds, outbox⟩ => ⟨lists, graph, kinds, outbox⟩,
        fun ok => ⟨ok.lists, ok.graph, ok.kinds, ok.outbox⟩⟩)

/-- A candidate with one more row and set is replayed. -/
theorem replayable_added_row :
    WellFormed zeroHash (ownedSetsImage [1]) ∧ WellFormed zeroHash (ownedSetsImage [1, 2]) ∧
    ActivationBatch.between zeroHash (ownedSetsImage [1]) (ownedSetsImage [1, 2]) =
      .ok (ActivationBatch.seal zeroHash
        (.unsealedBetween (ownedSetsImage [1]) (ownedSetsImage [1, 2]))) ∧
    Replayable (ownedSetsImage [1]) (ownedSetsImage [1, 2]) := by
  have currentOk : WellFormed zeroHash (ownedSetsImage [1]) := by decide
  have candidateOk : WellFormed zeroHash (ownedSetsImage [1, 2]) := by decide
  have between_eq : ActivationBatch.between zeroHash (ownedSetsImage [1]) (ownedSetsImage [1, 2]) =
      .ok (ActivationBatch.seal zeroHash
        (.unsealedBetween (ownedSetsImage [1]) (ownedSetsImage [1, 2]))) := by decide
  have applied : applyActivationToImage zeroHash (ownedSetsImage [1]) (ActivationBatch.seal zeroHash
      (.unsealedBetween (ownedSetsImage [1]) (ownedSetsImage [1, 2]))) =
      .ok ({ ownedSetsImage [1, 2] with epoch := (ownedSetsImage [1]).epoch + 1 },
        ⟨1, 1, Digest.ofByte 7, 0⟩) := by decide
  have edges : ∀ edge ∈ (ownedSetsImage [1]).completedMigrationEdges,
      edge ∈ (ownedSetsImage [1, 2]).completedMigrationEdges := fun edge member => member
  exact ⟨currentOk, candidateOk, between_eq,
    (between_replays_iff currentOk candidateOk (by decide) edges (by decide) between_eq).mp
      ⟨_, applied⟩⟩

/-- Well-formed candidates that lose a row with its set, or turn a scalar into a list, are
refused when their own batch is applied. -/
theorem between_refused_by_activation :
    (WellFormed zeroHash (ownedSetsImage [1, 2]) ∧ WellFormed zeroHash (ownedSetsImage [1]) ∧
      betweenIsRefused (ownedSetsImage [1, 2]) (ownedSetsImage [1]) = true) ∧
    WellFormed zeroHash scalarImage ∧ WellFormed zeroHash emptyListImage ∧
      betweenIsRefused scalarImage emptyListImage = true := by
  decide

end BoonCircuit.Persistence
