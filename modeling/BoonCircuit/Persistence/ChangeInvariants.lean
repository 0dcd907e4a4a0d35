import BoonCircuit.Persistence.KindSpec
import BoonCircuit.Persistence.GraphSpec

/-!
# What a change does to an image

The fifteen change kinds edit the four authority maps in eight ways.  An accepted
change is an edit whose preconditions have been checked, so valid lists and
disjoint kinds are kept by every accepted sequence of changes, with one proviso:
`SetRowField` checks neither the shell it stores nor whether a map or set uses its
memory, so these are conditions on the change here.
-/

namespace BoonCircuit.Persistence

open Data Lib Checks RestoreImage Std.ExtTreeMap BTreeMap List

inductive ImageEdit where
  | putScalar (memoryId : MemoryId) (value : StoredScalar)
  | dropScalar (memoryId : MemoryId)
  | putList (memoryId : MemoryId) (value : StoredList)
  | dropList (memoryId : MemoryId)
  | putMap (collectionId : DurableCollectionId) (value : StoredMap)
  | dropMap (collectionId : DurableCollectionId)
  | putSet (collectionId : DurableCollectionId) (value : StoredSet)
  | dropSet (collectionId : DurableCollectionId)

def ImageEdit.apply (image : RestoreImage) : ImageEdit → RestoreImage
  | .putScalar memoryId value => { image with scalars := image.scalars.insert memoryId value }
  | .dropScalar memoryId => { image with scalars := image.scalars.erase memoryId }
  | .putList memoryId value => { image with lists := image.lists.insert memoryId value }
  | .dropList memoryId => { image with lists := image.lists.erase memoryId }
  | .putMap collectionId value => { image with maps := image.maps.insert collectionId value }
  | .dropMap collectionId => { image with maps := image.maps.erase collectionId }
  | .putSet collectionId value => { image with sets := image.sets.insert collectionId value }
  | .dropSet collectionId => { image with sets := image.sets.erase collectionId }

/-- The map and set instances of an image. -/
def RestoreImage.collections (image : RestoreImage) : List DurableCollectionId :=
  image.maps.keys ++ image.sets.keys

variable {image next : RestoreImage} {collectionId : DurableCollectionId} {change : DurableChange}
  {memoryId : MemoryId} {kind : AuthorityKind} {changes : List DurableChange}

theorem mem_collections_iff :
    collectionId ∈ image.collections ↔ collectionId ∈ image.maps ∨ collectionId ∈ image.sets := by
  simp [collections]

/-- The instance that a change creates when it is not there yet. -/
def DurableChange.introduced : DurableChange → List DurableCollectionId
  | .setMap collectionId _ => [collectionId]
  | .setSet collectionId _ => [collectionId]
  | _ => []

/-- What has been checked before an edit: the memory is free for the kind, a stored list
is valid, a stored instance was there or is introduced. -/
def ImageEdit.Checked (image : RestoreImage) (introduced : List DurableCollectionId) :
    ImageEdit → Prop
  | .putScalar memoryId _ => image.Free memoryId .scalar
  | .putList memoryId value => image.Free memoryId .list ∧ validateList memoryId value = .ok ()
  | .putMap collectionId _ =>
    image.Free collectionId.memoryId .map ∧
      (collectionId ∈ image.maps ∨ collectionId ∈ introduced)
  | .putSet collectionId _ =>
    image.Free collectionId.memoryId .set ∧
      (collectionId ∈ image.sets ∨ collectionId ∈ introduced)
  | .dropScalar _ => True
  | .dropList _ => True
  | .dropMap _ => True
  | .dropSet _ => True

/-- Every stored list is valid. -/
def ListsOk (image : RestoreImage) : Prop :=
  ∀ memoryId list, image.lists[memoryId]? = some list → validateList memoryId list = .ok ()

/-- The image without its authorities. -/
def RestoreImage.header (image : RestoreImage) : RestoreImage :=
  { image with scalars := ∅, lists := ∅, maps := ∅, sets := ∅ }

theorem header_applyChange
    (applied : applyChange image change = .ok next) : next.header = image.header := by
  cases change with
  | removeRow memoryId listRevision rowKey rowGeneration nextKey nextOrderToken =>
    simp only [applyChange, removeRow, bind_eq_ok_iff] at applied
    rcases applied with ⟨_, _, _, _, _, _, advanced, _, _, _, finished⟩
    generalize (if advanced.touched = true then
      { advanced with nextKey := nextKey, nextOrderToken := nextOrderToken } else advanced) =
        final at finished
    split at finished <;> cases finished <;> rfl
  | _ =>
    simp only [applyChange, setScalar, setList, setRowField, insertRow, setMap, mapUpsert,
      mapRemove, setSet, setAdd, setRemove, bind_eq_ok_iff, pure_eq_ok_iff] at applied
    grind [header]

theorem ListsOk.edit {introduced : List DurableCollectionId}
    {edit : ImageEdit} (lists : ListsOk image) (checked : edit.Checked image introduced) :
    ListsOk (edit.apply image) := by
  intro memoryId list found
  cases edit with
  | putList =>
    rcases getElem?_insert_eq_some_iff.mp found with ⟨rfl, rfl⟩ | ⟨_, found⟩
    · exact checked.2
    · exact lists memoryId list found
  | dropList =>
    exact lists memoryId list (getElem?_erase_eq_some_iff.mp found).2
  | _ => exact lists memoryId list found

/-- The use that an edit may add. -/
def ImageEdit.added : ImageEdit → Option (MemoryId × AuthorityKind)
  | .putScalar memoryId _ => some (memoryId, .scalar)
  | .putList memoryId _ => some (memoryId, .list)
  | .putMap collectionId _ => some (collectionId.memoryId, .map)
  | .putSet collectionId _ => some (collectionId.memoryId, .set)
  | _ => none

theorem ImageEdit.uses_apply {edit : ImageEdit} (used : (edit.apply image).Uses memoryId kind) :
    image.Uses memoryId kind ∨ edit.added = some (memoryId, kind) := by
  cases edit <;> cases kind <;>
    simp only [ImageEdit.apply, Uses, ImageEdit.added] at used ⊢ <;>
    grind

theorem KindsOk.edit {introduced : List DurableCollectionId}
    {edit : ImageEdit} (kinds : KindsOk image) (checked : edit.Checked image introduced) :
    KindsOk (edit.apply image) := by
  apply kinds.add (fun memoryId kind => ImageEdit.uses_apply)
  intro memoryId kind added
  cases edit with
  | putScalar =>
    cases added
    exact checked
  | putList edited value | putMap edited value | putSet edited value =>
    cases added
    exact checked.1
  | _ => cases added

theorem mem_collections_of_edit {introduced : List DurableCollectionId} {edit : ImageEdit}
    (checked : edit.Checked image introduced)
    (member : collectionId ∈ (edit.apply image).collections) :
    collectionId ∈ image.collections ∨ collectionId ∈ introduced := by
  rw [mem_collections_iff] at member ⊢
  cases edit <;>
    simp only [ImageEdit.apply, ImageEdit.Checked] at member checked ⊢ <;>
    grind

/-- What `SetRowField` leaves unchecked: its value is an accepted shell and no map or set
instance uses its memory. -/
def DurableChange.FieldWriteOk (collections : List DurableCollectionId) : DurableChange → Prop
  | .setRowField memoryId _ _ _ _ _ _ value =>
    validateStoredValueShell value 0 = .ok () ∧
      ∀ collectionId ∈ collections, collectionId.memoryId ≠ memoryId
  | _ => True

theorem KindsOk.free
    (kinds : KindsOk image) (used : image.Uses memoryId kind) : image.Free memoryId kind :=
  fun other usedOther => kinds memoryId other kind usedOther used

theorem KindsOk.free_list {list : StoredList} (kinds : KindsOk image)
    (found : image.lists[memoryId]? = some list) : image.Free memoryId .list := by
  have used : image.Uses memoryId .list := mem_iff_exists.mpr ⟨list, found⟩
  exact kinds.free used

theorem KindsOk.free_map (kinds : KindsOk image) (member : collectionId ∈ image.maps) :
    image.Free collectionId.memoryId .map := by
  have used : image.Uses collectionId.memoryId .map := ⟨collectionId, member, rfl⟩
  exact kinds.free used

theorem KindsOk.free_set (kinds : KindsOk image) (member : collectionId ∈ image.sets) :
    image.Free collectionId.memoryId .set := by
  have used : image.Uses collectionId.memoryId .set := ⟨collectionId, member, rfl⟩
  exact kinds.free used

theorem setScalar_eq_ok_iff {value : StoredScalar} :
    setScalar image memoryId value = .ok next ↔
      image.Free memoryId .scalar ∧ next = (ImageEdit.putScalar memoryId value).apply image := by
  rw [setScalar, check_bind_eq_ok_iff, invalidAuthority_eq_ok_iff, pure_eq_ok_iff,
    eq_comm (b := next), free_scalar_iff]
  rfl

theorem setList_eq_ok_iff {value : StoredList} :
    setList image memoryId value = .ok next ↔
      validateList memoryId value = .ok () ∧ image.Free memoryId .list ∧
        next = (ImageEdit.putList memoryId value).apply image := by
  rw [setList, check_bind_eq_ok_iff, check_bind_eq_ok_iff, invalidAuthority_eq_ok_iff,
    pure_eq_ok_iff, eq_comm (b := next), free_list_iff]
  rfl

theorem setMap_eq_ok_iff {value : StoredMap} :
    setMap image collectionId value = .ok next ↔
      validateMap collectionId value = .ok () ∧ image.Free collectionId.memoryId .map ∧
        next = (ImageEdit.putMap collectionId value).apply image := by
  have twice : validateCollectionId collectionId = .ok () ∧
      validateMap collectionId value = .ok () ↔ validateMap collectionId value = .ok () := by
    rw [validateMap, check_bind_eq_ok_iff, ← and_assoc, and_self]
  rw [setMap, check_bind_eq_ok_iff, check_bind_eq_ok_iff, check_bind_eq_ok_iff, ← and_assoc, twice,
    invalidAuthority_eq_ok_iff, pure_eq_ok_iff, eq_comm (b := next), free_map_iff]
  rfl

theorem setSet_eq_ok_iff {value : StoredSet} :
    setSet image collectionId value = .ok next ↔
      validateSet collectionId value = .ok () ∧ image.Free collectionId.memoryId .set ∧
        next = (ImageEdit.putSet collectionId value).apply image := by
  rw [setSet, check_bind_eq_ok_iff, check_bind_eq_ok_iff, check_bind_eq_ok_iff, ← and_assoc,
    validateSet, and_self, invalidAuthority_eq_ok_iff, pure_eq_ok_iff, eq_comm (b := next),
    free_set_iff]
  rfl

theorem setRowField_edit {listRevision rowKey rowGeneration : UInt64} {owner : DurableOwner}
    {materializationOrigin : Option DurableOwner} {fieldId : MemoryLeafId}
    {value : StoredValueShell} (lists : ListsOk image)
    (valueOk : validateStoredValueShell value 0 = .ok ())
    (unused : ∀ collectionId ∈ image.collections, collectionId.memoryId ≠ memoryId)
    (applied : setRowField image memoryId listRevision rowKey rowGeneration owner
      materializationOrigin fieldId value = .ok next) :
    ∃ list, (ImageEdit.putList memoryId list).Checked image [] ∧
      next = (ImageEdit.putList memoryId list).apply image := by
  simp only [setRowField, bind_eq_ok_iff, invalidAuthority_eq_ok_iff, pure_eq_ok_iff] at applied
  rcases applied with ⟨_, notScalar, _, advance_eq, list, list_eq, rfl⟩
  have startOk : validateList memoryId
      (image.lists[memoryId]?.getD (sparseList listRevision)) = .ok () := by
    cases found : image.lists[memoryId]? with
    | some list => exact lists memoryId list found
    | none => exact validateList_sparseList
  have listOk := validateList_of_setFieldInRows valueOk
    (validateList_of_advanceListRevision startOk advance_eq) list_eq
  refine ⟨list, ⟨?_, listOk⟩, rfl⟩
  rw [free_list_iff]
  simp only [Bool.or_eq_true, hasMapMemory_iff, hasSetMemory_iff]
  rintro ((scalar | ⟨collectionId, member, same⟩) | ⟨collectionId, member, same⟩)
  · exact notScalar scalar
  · exact unused collectionId (mem_collections_iff.mpr (.inl member)) same
  · exact unused collectionId (mem_collections_iff.mpr (.inr member)) same

/-- An accepted change is a checked edit. -/
theorem applyChange_edit (lists : ListsOk image) (kinds : KindsOk image)
    (writeOk : change.FieldWriteOk image.collections)
    (applied : applyChange image change = .ok next) :
    ∃ edit : ImageEdit, edit.Checked image change.introduced ∧ next = edit.apply image := by
  cases change with
  | setScalar memoryId value =>
    rcases setScalar_eq_ok_iff.mp applied with ⟨free, next_eq⟩
    exact ⟨.putScalar memoryId value, free, next_eq⟩
  | deleteScalar memoryId =>
    cases applied
    exact ⟨.dropScalar memoryId, trivial, rfl⟩
  | setList memoryId value =>
    rcases setList_eq_ok_iff.mp applied with ⟨valueOk, free, next_eq⟩
    exact ⟨.putList memoryId value, ⟨free, valueOk⟩, next_eq⟩
  | setRowField =>
    rcases setRowField_edit lists writeOk.1 writeOk.2 applied with ⟨list, checked, next_eq⟩
    exact ⟨_, checked, next_eq⟩
  | insertRow memoryId =>
    simp only [applyChange, insertRow, bind_eq_ok_iff, okOr_eq_ok_iff, pure_eq_ok_iff] at applied
    rcases applied with ⟨list, found, _, _, _, _, _, _, _, _, _, listOk, rfl⟩
    exact ⟨.putList memoryId _, ⟨kinds.free_list found, listOk⟩, rfl⟩
  | removeRow memoryId listRevision rowKey rowGeneration nextKey nextOrderToken =>
    simp only [applyChange, removeRow, bind_eq_ok_iff, okOr_eq_ok_iff] at applied
    rcases applied with ⟨list, found, _, _, _, _, advanced, _, _, listOk, finished⟩
    -- The allocator of a materialized list is replaced; the validation covers both cases.
    generalize final_eq : (if advanced.touched = true then
      { advanced with nextKey := nextKey, nextOrderToken := nextOrderToken } else advanced) =
        final at listOk finished
    split at finished
    · cases finished
      exact ⟨.dropList memoryId, trivial, rfl⟩
    · cases finished
      exact ⟨.putList memoryId _, ⟨kinds.free_list found, listOk⟩, rfl⟩
  | deleteList memoryId =>
    cases applied
    exact ⟨.dropList memoryId, trivial, rfl⟩
  | setMap collectionId value =>
    rcases setMap_eq_ok_iff.mp applied with ⟨_, free, next_eq⟩
    exact ⟨.putMap collectionId value, ⟨free, .inr mem_cons_self⟩, next_eq⟩
  | mapUpsert collectionId =>
    simp only [applyChange, mapUpsert, bind_eq_ok_iff, okOr_eq_ok_iff, pure_eq_ok_iff] at applied
    rcases applied with ⟨_, _, map, found, _, _, _, _, rfl⟩
    have member := mem_iff_exists.mpr ⟨map, found⟩
    exact ⟨.putMap collectionId _, ⟨kinds.free_map member, .inl member⟩, rfl⟩
  | mapRemove collectionId =>
    simp only [applyChange, mapRemove, bind_eq_ok_iff, okOr_eq_ok_iff, pure_eq_ok_iff] at applied
    rcases applied with ⟨_, _, map, found, _, _, _, _, _, _, _, _, rfl⟩
    have member := mem_iff_exists.mpr ⟨map, found⟩
    exact ⟨.putMap collectionId _, ⟨kinds.free_map member, .inl member⟩, rfl⟩
  | deleteMap collectionId =>
    cases applied
    exact ⟨.dropMap collectionId, trivial, rfl⟩
  | setSet collectionId value =>
    rcases setSet_eq_ok_iff.mp applied with ⟨_, free, next_eq⟩
    exact ⟨.putSet collectionId value, ⟨free, .inr mem_cons_self⟩, next_eq⟩
  | setAdd collectionId revision item | setRemove collectionId revision item =>
    simp only [applyChange, setAdd, setRemove, bind_eq_ok_iff, okOr_eq_ok_iff,
      pure_eq_ok_iff] at applied
    rcases applied with ⟨_, _, set, found, _, _, _, _, rfl⟩
    have member := mem_iff_exists.mpr ⟨set, found⟩
    exact ⟨.putSet collectionId _, ⟨kinds.free_set member, .inl member⟩, rfl⟩
  | deleteSet collectionId =>
    cases applied
    exact ⟨.dropSet collectionId, trivial, rfl⟩

/-- The instances of an image and those that changes may add to it. -/
def RestoreImage.collectionsAround (image : RestoreImage) (changes : List DurableChange) :
    List DurableCollectionId :=
  image.collections ++ changes.flatMap DurableChange.introduced

/-- Every field override stores an accepted shell, in a memory that neither the image nor
the changes use for maps or sets. -/
def FieldWritesOk (image : RestoreImage) (changes : List DurableChange) : Prop :=
  ∀ change ∈ changes, change.FieldWriteOk (image.collectionsAround changes)

/-- What accepted changes keep of the image they start from. -/
structure EditedFrom (image : RestoreImage) (changes : List DurableChange)
    (edited : RestoreImage) : Prop where
  lists : ListsOk edited
  kinds : KindsOk edited
  collections : ∀ collectionId ∈ edited.collections, collectionId ∈ image.collectionsAround changes

theorem EditedFrom.refl
    (lists : ListsOk image) (kinds : KindsOk image) : EditedFrom image changes image where
  lists := lists
  kinds := kinds
  collections _ member := mem_append_left _ member

theorem DurableChange.FieldWriteOk.mono
    {some all : List DurableCollectionId} (subset : ∀ collectionId ∈ some, collectionId ∈ all)
    (writeOk : change.FieldWriteOk all) : change.FieldWriteOk some := by
  cases change with
  | setRowField => exact ⟨writeOk.1, fun collectionId member => writeOk.2 _ (subset _ member)⟩
  | _ => trivial

theorem EditedFrom.applyChange {edited : RestoreImage} (writes : FieldWritesOk image changes)
    (member : change ∈ changes) (before : EditedFrom image changes edited)
    (applied : applyChange edited change = .ok next) : EditedFrom image changes next := by
  have writeOk := (writes change member).mono before.collections
  rcases applyChange_edit before.lists before.kinds writeOk applied with ⟨edit, checked, rfl⟩
  constructor
  case lists => exact before.lists.edit checked
  case kinds => exact before.kinds.edit checked
  case collections =>
    intro collectionId present
    rcases mem_collections_of_edit checked present with old | introduced
    · exact before.collections collectionId old
    · exact mem_append_right _ (mem_flatMap.mpr ⟨change, member, introduced⟩)

theorem applyChanges_eq_ok_iff :
    applyChanges image changes = .ok next ↔
      changes.foldlM Persistence.applyChange image = .ok next ∧
        validateCollectionAuthorityGraph next = .ok () := by
  simp only [applyChanges, bind_eq_ok_iff, pure_eq_ok_iff]
  constructor
  · rintro ⟨_, folded, _, graph, rfl⟩
    exact ⟨folded, graph⟩
  · rintro ⟨folded, graph⟩
    exact ⟨next, folded, (), graph, rfl⟩

theorem header_applyChanges
    (applied : applyChanges image changes = .ok next) : next.header = image.header := by
  have folded := (applyChanges_eq_ok_iff.mp applied).1
  exact foldlM_invariant (fun edited => edited.header = image.header)
    (fun _ _ _ _ before step => (header_applyChange step).trans before) rfl folded

theorem contentArtifactManifest_applyChanges (applied : applyChanges image changes = .ok next) :
    next.contentArtifactManifest = image.contentArtifactManifest :=
  congrArg (fun header => header.contentArtifactManifest) (header_applyChanges applied)

/-- Accepted changes keep valid lists and disjoint kinds and end in a valid graph. -/
theorem editedFrom_of_applyChanges (lists : ListsOk image) (kinds : KindsOk image)
    (writes : FieldWritesOk image changes) (applied : applyChanges image changes = .ok next) :
    EditedFrom image changes next ∧ validateCollectionAuthorityGraph next = .ok () := by
  rcases applyChanges_eq_ok_iff.mp applied with ⟨folded, graph⟩
  refine ⟨?_, graph⟩
  apply foldlM_invariant _ _ (EditedFrom.refl lists kinds) folded
  intro change member edited following before step
  exact before.applyChange writes member step

end BoonCircuit.Persistence
