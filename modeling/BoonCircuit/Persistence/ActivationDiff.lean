import BoonCircuit.Lib.Overlay
import BoonCircuit.Persistence.ChangeInvariants

/-!
# The activation batch between two images

`ActivationBatch::between` compares a candidate image with the current one.  It
stores every scalar, list, map and set instance that the candidate has and the
current image lacks or holds differently, and deletes every memory that the
candidate does not use any more.  Replaying the stores lays the candidate over
the current image.
-/

namespace BoonCircuit.Persistence

open Data Lib Checks BTreeMap RestoreImage

/-- Some memory of the image has two authority kinds. -/
def RestoreImage.kindsCollide (image : RestoreImage) : Bool :=
  (image.scalars.keys.any fun memory => image.lists.contains memory ||
      image.hasMapMemory memory || image.hasSetMemory memory) ||
    (image.lists.keys.any fun memory => image.hasMapMemory memory || image.hasSetMemory memory) ||
    image.maps.keys.any fun collection => image.hasSetMemory collection.memoryId

variable (current candidate : RestoreImage)

/-- The stores that turn the authorities of the current image into the candidate's. -/
def authorityDiff : List DurableChange :=
  ((changed current.scalars candidate.scalars).map fun entry =>
      .setScalar entry.1 entry.2) ++
    ((changed current.lists candidate.lists).map fun entry => .setList entry.1 entry.2) ++
    ((changed current.maps candidate.maps).map fun entry => .setMap entry.1 entry.2) ++
    (changed current.sets candidate.sets).map fun entry => .setSet entry.1 entry.2

/-- Whether the image uses the memory as any authority. -/
def RestoreImage.hasMemory (image : RestoreImage) (memory : MemoryId) : Bool :=
  image.scalars.contains memory || image.lists.contains memory || image.hasMapMemory memory ||
    image.hasSetMemory memory

/-- The memories of the current image that the candidate does not use, in order. -/
def deletedBetween : List MemoryId :=
  let memories := current.scalars.keys ++ current.lists.keys ++
    current.maps.keys.map DurableCollectionId.memoryId ++
    current.sets.keys.map DurableCollectionId.memoryId
  let deleted : BTreeSet MemoryId :=
    .ofList (memories.filter fun memory => !candidate.hasMemory memory) compare
  deleted.toList

/-- The batch between two images before it is sealed. -/
def ActivationBatch.unsealedBetween : ActivationBatch where
  application := current.application
  expectedBaseEpoch := current.epoch
  nextEpoch := saturatingSucc current.epoch
  sourceSchemaHash := current.schemaHash
  targetSchemaVersion := candidate.schemaVersion
  targetSchemaHash := candidate.schemaHash
  throughTurnSequence := candidate.throughTurnSequence
  authorityChanges := authorityDiff current candidate
  outboxChanges := []
  completedMigrationEdges := candidate.completedMigrationEdges.toList.filter fun edge =>
    !current.completedMigrationEdges.contains edge
  deletedMemory := deletedBetween current candidate
  targetContentArtifactManifest := candidate.contentArtifactManifest
  contentArtifacts := ∅
  checksum := Digest.ofByte 0

def ActivationBatch.between (sha256 : List UInt8 → Digest) (current candidate : RestoreImage) :
    Outcome ActivationBatch := do
  reject (current.application ≠ candidate.application) .identityMismatch
  reject (candidate.throughTurnSequence < current.throughTurnSequence) .nonContiguousTurn
  forM candidate.lists.toList fun entry => validateList entry.1 entry.2
  forM candidate.maps.toList fun entry => do
    validateCollectionId entry.1
    validateMap entry.1 entry.2
  forM candidate.sets.toList fun entry => do
    validateCollectionId entry.1
    validateSet entry.1 entry.2
  validateContentArtifactManifest candidate.contentArtifactManifest
  invalidAuthority candidate.kindsCollide
    "candidate uses one memory ID for more than one authority kind"
  invalidOutboxTransition (current.outbox ≠ candidate.outbox)
    "schema activation cannot mutate the effect outbox"
  pure (ActivationBatch.seal sha256 (unsealedBetween current candidate))

/-- The candidate's authorities laid over those of the current image. -/
def RestoreImage.overlay : RestoreImage :=
  { current with
    scalars := current.scalars.writeAll (changed current.scalars candidate.scalars)
    lists := current.lists.writeAll (changed current.lists candidate.lists)
    maps := current.maps.writeAll (changed current.maps candidate.maps)
    sets := current.sets.writeAll (changed current.sets candidate.sets) }

/-- No memory changes its kind. -/
def KindsAgree : Prop :=
  ∀ memoryId left right, current.Uses memoryId left → candidate.Uses memoryId right → left = right

section Stores

variable {image next : RestoreImage}

/-- A sequence of stores of one kind succeeds when every store is accepted at the start. -/
theorem foldlM_stores {α : Type} (change : α → DurableChange) (edit : α → ImageEdit)
    {Good : RestoreImage → α → Prop} {store : RestoreImage → List α → RestoreImage}
    (accepted : ∀ image item next, applyChange image (change item) = .ok next ↔
      Good image item ∧ next = (edit item).apply image)
    (stable : ∀ image written item, Good ((edit written).apply image) item ↔ Good image item)
    (store_nil : ∀ image, store image [] = image) (store_cons : ∀ image item items,
      store image (item :: items) = store ((edit item).apply image) items) {items : List α} :
    (items.map change).foldlM applyChange image = .ok next ↔
      (∀ item ∈ items, Good image item) ∧ next = store image items := by
  have stored : ∀ image, items.foldl (fun image item => (edit item).apply image) image =
      store image items := by
    induction items with
    | nil => exact fun image => (store_nil image).symm
    | cons item items ih => exact fun image => (ih _).trans (store_cons image item items).symm
  rw [List.foldlM_map, ← stored]
  exact foldlM_eq_ok_iff accepted stable

theorem foldlM_setScalar {entries : List (MemoryId × StoredScalar)} :
    (entries.map fun entry => DurableChange.setScalar entry.1 entry.2).foldlM applyChange image =
        .ok next ↔
      (∀ entry ∈ entries, image.Free entry.1 .scalar) ∧
        next = { image with scalars := image.scalars.writeAll entries } := by
  apply foldlM_stores (fun entry : MemoryId × StoredScalar => .setScalar entry.1 entry.2)
    (fun entry => .putScalar entry.1 entry.2) (fun _ _ _ => setScalar_eq_ok_iff) _ (fun _ => rfl)
    fun _ _ _ => rfl
  intro image written entry
  rw [free_scalar_iff, free_scalar_iff]
  rfl

theorem foldlM_setList {entries : List (MemoryId × StoredList)} :
    (entries.map fun entry => DurableChange.setList entry.1 entry.2).foldlM applyChange image =
        .ok next ↔
      (∀ entry ∈ entries, validateList entry.1 entry.2 = .ok () ∧ image.Free entry.1 .list) ∧
        next = { image with lists := image.lists.writeAll entries } := by
  apply foldlM_stores (fun entry : MemoryId × StoredList => .setList entry.1 entry.2)
    (fun entry => .putList entry.1 entry.2) (fun _ _ _ => setList_eq_ok_iff.trans and_assoc.symm) _
      (fun _ => rfl)
    fun _ _ _ => rfl
  intro image written entry
  rw [free_list_iff, free_list_iff]
  rfl

theorem foldlM_setMap {entries : List (DurableCollectionId × StoredMap)} :
    (entries.map fun entry => DurableChange.setMap entry.1 entry.2).foldlM applyChange image =
        .ok next ↔
      (∀ entry ∈ entries, validateMap entry.1 entry.2 = .ok () ∧
        image.Free entry.1.memoryId .map) ∧
        next = { image with maps := image.maps.writeAll entries } := by
  apply foldlM_stores (fun entry : DurableCollectionId × StoredMap => .setMap entry.1 entry.2)
    (fun entry => .putMap entry.1 entry.2) (fun _ _ _ => setMap_eq_ok_iff.trans and_assoc.symm) _
      (fun _ => rfl)
    fun _ _ _ => rfl
  intro image written entry
  rw [free_map_iff, free_map_iff]
  rfl

theorem foldlM_setSet {entries : List (DurableCollectionId × StoredSet)} :
    (entries.map fun entry => DurableChange.setSet entry.1 entry.2).foldlM applyChange image =
        .ok next ↔
      (∀ entry ∈ entries, validateSet entry.1 entry.2 = .ok () ∧
        image.Free entry.1.memoryId .set) ∧
        next = { image with sets := image.sets.writeAll entries } := by
  apply foldlM_stores (fun entry : DurableCollectionId × StoredSet => .setSet entry.1 entry.2)
    (fun entry => .putSet entry.1 entry.2) (fun _ _ _ => setSet_eq_ok_iff.trans and_assoc.symm) _
      (fun _ => rfl)
    fun _ _ _ => rfl
  intro image written entry
  rw [free_set_iff, free_set_iff]
  rfl

end Stores

/-- The image uses what the current image uses, and beyond that only what the candidate uses. -/
structure Spans (current candidate image : RestoreImage) : Prop where
  grows : ∀ memoryId kind, current.Uses memoryId kind → image.Uses memoryId kind
  bounded : ∀ memoryId kind, image.Uses memoryId kind →
    current.Uses memoryId kind ∨ candidate.Uses memoryId kind

section Spans

variable {current candidate image next : RestoreImage} {memoryId : MemoryId}

theorem Spans.refl : Spans current candidate current where
  grows _ _ used := used
  bounded _ _ used := .inl used

theorem Spans.free {kind : AuthorityKind} (spans : Spans current candidate image)
    (agree : KindsAgree current candidate) (kinds : KindsOk candidate)
    (used : candidate.Uses memoryId kind) : image.Free memoryId kind := by
  intro other usedOther
  rcases spans.bounded memoryId other usedOther with inCurrent | inCandidate
  · exact agree memoryId other kind inCurrent used
  · exact kinds memoryId other kind inCandidate used

theorem Spans.eq_of_free {left right : AuthorityKind} (spans : Spans current candidate image)
    (free : image.Free memoryId right) (used : current.Uses memoryId left) : left = right :=
  free left (spans.grows memoryId left used)

theorem Spans.lay (spans : Spans current candidate image)
    (kind : AuthorityKind)
    (own : ∀ memoryId, next.Uses memoryId kind ↔
      candidate.Uses memoryId kind ∨ current.Uses memoryId kind)
    (others : ∀ memoryId other, other ≠ kind →
      (next.Uses memoryId other ↔ image.Uses memoryId other)) :
    Spans current candidate next where
  grows memoryId other used := by
    by_cases same : other = kind
    · subst same
      exact (own memoryId).mpr (.inr used)
    · exact (others memoryId other same).mpr (spans.grows memoryId other used)
  bounded memoryId other used := by
    by_cases same : other = kind
    · subst same
      exact ((own memoryId).mp used).symm
    · exact spans.bounded memoryId other ((others memoryId other same).mp used)

/-- The stores of the difference are accepted exactly when no memory changes its kind; they
lay the candidate over the current image. -/
theorem foldlM_authorityDiff (currentKinds : KindsOk current)
    (candidateKinds : KindsOk candidate) (lists : ListsOk candidate)
    (maps : ∀ id map, candidate.maps[id]? = some map → validateMap id map = .ok ())
    (sets : ∀ id set, candidate.sets[id]? = some set → validateSet id set = .ok ()) :
    (authorityDiff current candidate).foldlM applyChange current = .ok next ↔
      KindsAgree current candidate ∧ next = current.overlay candidate := by
  have start : Spans current candidate current := Spans.refl
  have first : Spans current candidate { current with
      scalars := current.scalars.writeAll (changed current.scalars candidate.scalars) } := by
    refine start.lay .scalar (fun _ => mem_writeAll_changed) fun _ other apart => ?_
    cases other <;> first | exact absurd rfl apart | exact Iff.rfl
  have second : Spans current candidate { current with
      scalars := current.scalars.writeAll (changed current.scalars candidate.scalars)
      lists := current.lists.writeAll (changed current.lists candidate.lists) } := by
    refine first.lay .list (fun _ => mem_writeAll_changed) fun _ other apart => ?_
    cases other <;> first | exact absurd rfl apart | exact Iff.rfl
  have third : Spans current candidate { current with
      scalars := current.scalars.writeAll (changed current.scalars candidate.scalars)
      lists := current.lists.writeAll (changed current.lists candidate.lists)
      maps := current.maps.writeAll (changed current.maps candidate.maps) } := by
    refine second.lay .map (fun _ => ?_) fun _ other apart => ?_
    · simp [Uses, mem_writeAll_changed, or_and_right, exists_or]
    · cases other <;> first | exact absurd rfl apart | exact Iff.rfl
  simp only [authorityDiff, List.foldlM_append, bind_eq_ok_iff, foldlM_setScalar, foldlM_setList,
    foldlM_setMap, foldlM_setSet]
  constructor
  · rintro ⟨_, ⟨_, ⟨_, ⟨freeScalars, rfl⟩, freeLists, rfl⟩, freeMaps, rfl⟩, freeSets, rfl⟩
    refine ⟨?_, rfl⟩
    intro memoryId left right usedLeft usedRight
    by_contra different
    -- A memory of another kind is not bound yet, so the candidate's binding is a change.
    have unbound : ¬ current.Uses memoryId right :=
      fun used => different (currentKinds memoryId left right usedLeft used)
    cases right with
    | scalar =>
      rcases mem_iff_exists.mp usedRight with ⟨value, found⟩
      have stored := mem_changed_of_not_mem found unbound
      exact different (start.eq_of_free (freeScalars (memoryId, value) stored) usedLeft)
    | list =>
      rcases mem_iff_exists.mp usedRight with ⟨value, found⟩
      have stored := mem_changed_of_not_mem found unbound
      exact different (first.eq_of_free (freeLists (memoryId, value) stored).2 usedLeft)
    | map =>
      rcases usedRight with ⟨collectionId, member, rfl⟩
      rcases mem_iff_exists.mp member with ⟨value, found⟩
      have stored := mem_changed_of_not_mem found fun bound =>
        unbound ⟨collectionId, bound, rfl⟩
      exact different (second.eq_of_free (freeMaps (collectionId, value) stored).2 usedLeft)
    | set =>
      rcases usedRight with ⟨collectionId, member, rfl⟩
      rcases mem_iff_exists.mp member with ⟨value, found⟩
      have stored := mem_changed_of_not_mem found fun bound =>
        unbound ⟨collectionId, bound, rfl⟩
      exact different (third.eq_of_free (freeSets (collectionId, value) stored).2 usedLeft)
  · rintro ⟨agree, rfl⟩
    refine ⟨_, ⟨_, ⟨_, ⟨?_, rfl⟩, ?_, rfl⟩, ?_, rfl⟩, ?_, rfl⟩
    · intro entry member
      have found := (mem_changed_iff.mp member).1
      have used : candidate.Uses entry.1 .scalar := mem_iff_exists.mpr ⟨_, found⟩
      exact start.free agree candidateKinds used
    · intro entry member
      have found := (mem_changed_iff.mp member).1
      have used : candidate.Uses entry.1 .list := mem_iff_exists.mpr ⟨_, found⟩
      exact ⟨lists _ _ found, first.free agree candidateKinds used⟩
    · intro entry member
      have found := (mem_changed_iff.mp member).1
      have used : candidate.Uses entry.1.memoryId .map :=
        ⟨entry.1, mem_iff_exists.mpr ⟨_, found⟩, rfl⟩
      exact ⟨maps _ _ found, second.free agree candidateKinds used⟩
    · intro entry member
      have found := (mem_changed_iff.mp member).1
      have used : candidate.Uses entry.1.memoryId .set :=
        ⟨entry.1, mem_iff_exists.mpr ⟨_, found⟩, rfl⟩
      exact ⟨sets _ _ found, third.free agree candidateKinds used⟩

end Spans

end BoonCircuit.Persistence
