import BoonCircuit.Persistence.ChecksumBinding
import BoonCircuit.Persistence.Deletion

/-!
# The invariant of durable images

Images change by checkpoints, activations and resets.  Valid lists, a well-attached
collection graph, disjoint authority kinds and a valid outbox are kept by every
step whose field overrides store accepted shells in list memories and whose
deletions are closed along owner routes, and an idle checkpoint then succeeds.
The code checks neither condition; images that fail a later checkpoint show that
both are needed.  The epoch counts the steps, so no step is accepted twice.
-/

namespace BoonCircuit.Persistence

open Data Lib Checks Digest

section Invariant

variable (sha256 : List UInt8 → Digest)

inductive ImageCommand where
  | checkpoint (batch : CheckpointBatch)
  | activation (batch : ActivationBatch)
  | reset (batch : ResetApplicationBatch)

/-- The image after a step; the acknowledgement is dropped. -/
def applyCommand (image : RestoreImage) : ImageCommand → Outcome RestoreImage
  | .checkpoint batch => Prod.fst <$> applyCheckpointToImage sha256 image batch
  | .activation batch => Prod.fst <$> applyActivationToImage sha256 image batch
  | .reset batch => Prod.fst <$> applyResetToImage sha256 image batch

/-- The conditions that a step leaves unchecked. -/
def CommandGuard (image : RestoreImage) : ImageCommand → Prop
  | .checkpoint batch => FieldWritesOk image batch.changes
  | .activation batch =>
    FieldWritesOk image batch.authorityChanges ∧
      ∀ collectionId ∈ image.collectionsAround batch.authorityChanges,
        DeletionClosed batch.deletedMemory collectionId
  | .reset batch => FieldWritesOk batch.defaultImage batch.authorityChanges

/-- One successful step that meets the unchecked conditions. -/
def GuardedStep (image next : RestoreImage) : Prop :=
  ∃ command, CommandGuard image command ∧ applyCommand sha256 image command = .ok next

/-- What every step relies on and restores. -/
structure ImageOk (image : RestoreImage) : Prop where
  lists : ListsOk image
  graph : GraphOk image
  kinds : KindsOk image
  outbox : validateOutbox sha256 image.outbox = .ok ()
  manifest : validateContentArtifactManifest image.contentArtifactManifest = .ok ()

variable {sha256}

variable {image next : RestoreImage} {batch : CheckpointBatch}

theorem imageOk_of_validateInitialImage
    (accepted : validateInitialImage sha256 image = .ok ()) : ImageOk sha256 image := by
  simp only [validateInitialImage, check_bind_eq_ok_iff, forM_eq_ok_iff,
    BTreeMap.forall_mem_toList, validateCollectionAuthorityGraph_eq_ok_iff,
    validateAuthorityKindsDisjoint_eq_ok_iff] at accepted
  rcases accepted with ⟨_, lists, _, _, graph, kinds, outbox, manifest, _⟩
  exact ⟨lists, graph, kinds, outbox, manifest⟩

theorem ImageOk.checkpoint {ack : CommitAck}
    (before : ImageOk sha256 image) (writes : FieldWritesOk image batch.changes)
    (applied : applyCheckpointToImage sha256 image batch = .ok (next, ack)) :
    ImageOk sha256 next := by
  simp only [applyCheckpointToImage, bind_eq_ok_iff] at applied
  rcases applied with
    ⟨_, _, _, _, _, _, _, _, _, _, _, changed, _, _, _, manifest_eq, _,
      outboxOk, result_eq⟩
  cases result_eq
  rcases editedFrom_of_applyChanges before.lists before.kinds writes changed with ⟨edited, graph⟩
  simp only [applyDurableContentArtifactChanges, bind_eq_ok_iff, pure_eq_ok_iff] at manifest_eq
  rcases manifest_eq with ⟨_, _, _, manifestOk, rfl⟩
  have graphOk := validateCollectionAuthorityGraph_eq_ok_iff.mp graph
  exact ⟨edited.lists, graphOk.transfer rfl rfl rfl, edited.kinds, outboxOk, manifestOk⟩

theorem ImageOk.activation {batch : ActivationBatch} {ack : ActivationAck}
    (before : ImageOk sha256 image) (writes : FieldWritesOk image batch.authorityChanges)
    (closed : ∀ collectionId ∈ image.collectionsAround batch.authorityChanges,
      DeletionClosed batch.deletedMemory collectionId)
    (applied : applyActivationToImage sha256 image batch = .ok (next, ack)) :
    ImageOk sha256 next := by
  simp only [applyActivationToImage, bind_eq_ok_iff, foldl_deleteMemory] at applied
  rcases applied with
    ⟨_, valid, _, _, _, _, _, _, _, _, _, changed, _, _, _, outboxOk, result_eq⟩
  cases result_eq
  rcases editedFrom_of_applyChanges before.lists before.kinds writes changed with ⟨edited, graph⟩
  simp only [validateActivation, bind_eq_ok_iff] at valid
  rcases valid with ⟨_, _, _, _, _, manifestOk, _⟩
  have graphOk := (validateCollectionAuthorityGraph_eq_ok_iff.mp graph).without fun collectionId
    member => closed collectionId (edited.collections collectionId member)
  exact ⟨edited.lists.without, graphOk.transfer rfl rfl rfl, edited.kinds.without, outboxOk,
    manifestOk⟩

theorem ImageOk.reset {batch : ResetApplicationBatch} {ack : ResetApplicationAck}
    (writes : FieldWritesOk batch.defaultImage batch.authorityChanges)
    (applied : applyResetToImage sha256 image batch = .ok (next, ack)) : ImageOk sha256 next := by
  simp only [applyResetToImage, activateDefault, bind_eq_ok_iff, pure_eq_ok_iff] at applied
  rcases applied with
    ⟨_, valid, _, _, _, _, _, _, _, _, _, ⟨_, changed, _, _, _, outboxOk, rfl⟩,
      result_eq⟩
  cases result_eq
  simp only [validateReset, bind_eq_ok_iff] at valid
  rcases valid with ⟨_, _, _, accepted, _⟩
  have default := imageOk_of_validateInitialImage accepted
  rcases editedFrom_of_applyChanges default.lists default.kinds writes changed with ⟨edited, graph⟩
  have graphOk := validateCollectionAuthorityGraph_eq_ok_iff.mp graph
  have manifest_eq := contentArtifactManifest_applyChanges changed
  exact ⟨edited.lists, graphOk.transfer rfl rfl rfl, edited.kinds, outboxOk,
    manifest_eq ▸ default.manifest⟩

/-- Every guarded step restores the invariant. -/
theorem ImageOk.step (before : ImageOk sha256 image)
    (step : GuardedStep sha256 image next) : ImageOk sha256 next := by
  rcases step with ⟨command, guard, applied⟩
  cases command with
  | checkpoint =>
    rcases map_eq_ok_iff.mp applied with ⟨⟨_, ack⟩, accepted, rfl⟩
    exact before.checkpoint guard accepted
  | activation =>
    rcases map_eq_ok_iff.mp applied with ⟨⟨_, ack⟩, accepted, rfl⟩
    exact before.activation guard.1 guard.2 accepted
  | reset =>
    rcases map_eq_ok_iff.mp applied with ⟨⟨_, ack⟩, accepted, rfl⟩
    exact ImageOk.reset guard accepted

/-- Every image reached by guarded steps is valid. -/
theorem ImageOk.run (before : ImageOk sha256 image)
    (steps : Relation.ReflTransGen (GuardedStep sha256) image next) : ImageOk sha256 next := by
  induction steps with
  | refl => exact before
  | tail _ step ih => exact ih.step step

variable (sha256) in
/-- A sealed checkpoint with the right numbers and no changes. -/
structure IdleCheckpoint (image : RestoreImage) (batch : CheckpointBatch) : Prop where
  checksum : batch.checksum = checkpointChecksum sha256 batch
  application : batch.application = image.application
  schemaHash : batch.schemaHash = image.schemaHash
  baseEpoch : batch.baseEpoch = image.epoch
  nextEpoch : batch.nextEpoch = image.epoch + 1
  firstTurnSequence : batch.firstTurnSequence = image.throughTurnSequence + 1
  lastTurnSequence : batch.firstTurnSequence ≤ batch.lastTurnSequence
  changes : batch.changes = []
  outboxChanges : batch.outboxChanges = []
  contentArtifactChanges : batch.contentArtifactChanges = []

theorem ImageOk.idle (ok : ImageOk sha256 image) (idle : IdleCheckpoint sha256 image batch) :
    ∃ result, applyCheckpointToImage sha256 image batch = .ok result := by
  have graph : applyChanges image batch.changes = .ok image := by
    rw [idle.changes]
    exact applyChanges_eq_ok_iff.mpr ⟨rfl, validateCollectionAuthorityGraph_eq_ok_iff.mpr ok.graph⟩
  have manifest : applyDurableContentArtifactChanges image.contentArtifactManifest
      batch.contentArtifactChanges = .ok image.contentArtifactManifest := by
    rw [idle.contentArtifactChanges]
    simp only [applyDurableContentArtifactChanges, bind_eq_ok_iff]
    exact ⟨_, rfl, (), ok.manifest, rfl⟩
  have valid : validateCheckpoint sha256 batch = .ok () := by
    rw [validateCheckpoint, check_bind_eq_ok_iff, reject_eq_ok_iff, idle.outboxChanges]
    exact ⟨not_not.mpr idle.checksum, by simp⟩
  have epochs : ¬ (image.epoch ≠ batch.baseEpoch ∨ batch.nextEpoch ≠ batch.baseEpoch + 1) := by
    simp [idle.baseEpoch, idle.nextEpoch]
  have turns : ¬ (batch.firstTurnSequence ≠ image.throughTurnSequence + 1 ∨
      batch.lastTurnSequence < batch.firstTurnSequence) := by
    simpa [idle.firstTurnSequence] using idle.lastTurnSequence
  simp only [applyCheckpointToImage, bind_eq_ok_iff, reject_eq_ok_iff]
  exact ⟨_, (), valid, (), not_not.mpr idle.application.symm, (), not_not.mpr idle.schemaHash.symm,
    (), epochs, (), turns, image, graph, image.outbox, by rw [idle.outboxChanges]; rfl,
    _, manifest, (), ok.outbox, rfl⟩

/-- In every run of guarded steps from an accepted initial image, every image passes the
validations of lists, graph, kinds and outbox, and an idle checkpoint succeeds. -/
theorem validations_of_guarded_run {initial image : RestoreImage}
    (accepted : validateInitialImage sha256 initial = .ok ())
    (steps : Relation.ReflTransGen (GuardedStep sha256) initial image) :
    (∀ memoryId list, image.lists[memoryId]? = some list → validateList memoryId list = .ok ()) ∧
    validateCollectionAuthorityGraph image = .ok () ∧
    validateAuthorityKindsDisjoint image = .ok () ∧
    validateOutbox sha256 image.outbox = .ok () ∧
    ∀ batch, IdleCheckpoint sha256 image batch →
      ∃ result, applyCheckpointToImage sha256 image batch = .ok result := by
  have ok := (imageOk_of_validateInitialImage accepted).run steps
  exact ⟨ok.lists, validateCollectionAuthorityGraph_eq_ok_iff.mpr ok.graph,
    validateAuthorityKindsDisjoint_eq_ok_iff.mpr ok.kinds, ok.outbox, fun _ => ok.idle⟩

end Invariant

/-- The owner of a row of the sample list. -/
def sampleRowOwner (key : UInt64) : DurableOwner := ⟨[⟨ofByte 1, key, 1⟩]⟩

/-- A set that belongs to a row of the sample list. -/
def ownedSetId (key : UInt64) : DurableCollectionId := ⟨ofByte 2, sampleRowOwner key, []⟩

/-- A row whose only field refers to the set it owns. -/
def sampleRow (key : UInt64) : StoredRow where
  key := key
  generation := 1
  sourceOrderToken := key.toBitVec.zeroExtend 128
  owner := sampleRowOwner key
  materializationOrigin := none
  fields := .ofList [(ofByte 3, .childAuthority (ownedSetId key))] compare
  touchedFields := ∅

/-- An image with a list and the sets that its rows own. -/
def ownedSetsImage (keys : List UInt64) : RestoreImage :=
  { RestoreImage.empty sampleApplication 1 (ofByte 7) with
    lists := .ofList [(ofByte 1, ⟨true, 0, 10, 10, keys.map sampleRow⟩)] compare
    sets := .ofList (keys.map fun key => (ownedSetId key, ⟨true, 0, ∅⟩)) compare }

/-- An initial image with one row and its set. -/
def ownedSetImage : RestoreImage :=
  ownedSetsImage [1]

/-- The image after an activation that deletes the memory of the list. -/
def orphanedSetImage : RestoreImage :=
  { ownedSetImage with
    lists := ∅
    schemaVersion := 2
    schemaHash := ofByte 8
    epoch := 1 }

/-- The image after an activation that deletes the memories of the list and of the set. -/
def emptiedImage : RestoreImage :=
  { orphanedSetImage with sets := ∅ }

theorem guardedStep_emptiedImage : GuardedStep zeroHash ownedSetImage emptiedImage := by
  refine ⟨.activation (sampleActivation [] [ofByte 1, ofByte 2]), ⟨?_, ?_⟩, by decide +kernel⟩
  · intro change member
    cases member
  · have around : ownedSetImage.collectionsAround [] = [ownedSetId 1] := by decide
    intro collectionId member
    obtain rfl := List.mem_singleton.mp (around ▸ member)
    intro parent parent_eq
    obtain rfl : ofByte 1 = parent := Option.some.inj parent_eq
    decide

theorem validations_of_deleting_run :
    validateInitialImage zeroHash ownedSetImage = .ok () ∧
    GuardedStep zeroHash ownedSetImage emptiedImage ∧
    validateCollectionAuthorityGraph emptiedImage = .ok () ∧
    ∃ result, applyCheckpointToImage zeroHash emptiedImage
      { sampleCheckpoint [] [] with
        schemaHash := ofByte 8, baseEpoch := 1, nextEpoch := 2 } = .ok result := by
  have accepted : validateInitialImage zeroHash ownedSetImage = .ok () := by decide
  have valid := validations_of_guarded_run accepted (.single guardedStep_emptiedImage)
  refine ⟨accepted, guardedStep_emptiedImage, valid.2.1, valid.2.2.2.2 _ ?_⟩
  constructor <;> decide

/-- The next checkpoint of the orphaned set, without any change. -/
def idleAfterDeletion : CheckpointBatch :=
  { sampleCheckpoint [] [] with schemaHash := ofByte 8, baseEpoch := 1, nextEpoch := 2 }

/-- A field override in the memory of the owned set. -/
def overrideInSet (value : StoredValueShell) : DurableChange :=
  .setRowField (ofByte 2) 0 1 1 ⟨[⟨ofByte 2, 1, 1⟩]⟩ none (ofByte 3) value

/-- A shell of the given depth. -/
def nestedShell : Nat → StoredValueShell
  | 0 => .text ""
  | depth + 1 => .list [nestedShell depth]

/-- A validation of the image after a step. -/
def afterCommand (image : RestoreImage) (command : ImageCommand)
    (check : RestoreImage → Outcome Unit) : Bool :=
  match applyCommand zeroHash image command with
  | .ok next => (check next).isOk
  | .error _ => true

theorem unguarded_steps_break_images :
    (validateInitialImage zeroHash ownedSetImage = .ok () ∧
      (applyActivationToImage zeroHash ownedSetImage (sampleActivation [] [ofByte 1])) =
        .ok (orphanedSetImage, ⟨1, 2, ofByte 8, 0⟩) ∧
      (validateCollectionAuthorityGraph orphanedSetImage).isOk = false ∧
      IdleCheckpoint zeroHash orphanedSetImage idleAfterDeletion ∧
      (applyCheckpointToImage zeroHash orphanedSetImage idleAfterDeletion).isOk = false) ∧
    afterCommand ownedSetImage (.checkpoint (sampleCheckpoint [overrideInSet (.text "")] []))
      validateAuthorityKindsDisjoint = false ∧
    afterCommand (.empty sampleApplication 1 (ofByte 7))
      (.checkpoint (sampleCheckpoint [overrideInSet (nestedShell 65)] []))
      (fun image => forM image.lists.toList fun entry => validateList entry.1 entry.2) = false := by
  refine ⟨⟨rfl, by decide +kernel, rfl, ?_, rfl⟩, rfl, by decide +kernel⟩
  constructor <;> decide

/-- The epoch that a step expects. -/
def ImageCommand.baseEpoch : ImageCommand → UInt64
  | .checkpoint batch => batch.baseEpoch
  | .activation batch => batch.expectedBaseEpoch
  | .reset batch => batch.expectedBaseEpoch

variable {sha256 : List UInt8 → Digest} {image next later : RestoreImage} {command : ImageCommand}
  {commands : List ImageCommand}

theorem epoch_of_applyCommand (applied : applyCommand sha256 image command = .ok next) :
    command.baseEpoch = image.epoch ∧ next.epoch = image.epoch + 1 := by
  cases command with
  | checkpoint =>
    obtain ⟨⟨_, _⟩, accepted, rfl⟩ := map_eq_ok_iff.mp applied
    simp only [applyCheckpointToImage, bind_eq_ok_iff, reject_eq_ok_iff, not_or, not_not]
      at accepted
    obtain ⟨_, _, _, _, _, _, _, ⟨base, counted⟩, _, _, _, _, _, _, _, _, _, _, done⟩ := accepted
    cases pure_eq_ok_iff.mp done
    exact ⟨base.symm, base ▸ counted⟩
  | activation =>
    obtain ⟨⟨_, _⟩, accepted, rfl⟩ := map_eq_ok_iff.mp applied
    simp only [applyActivationToImage, bind_eq_ok_iff, reject_eq_ok_iff, not_or, not_not]
      at accepted
    obtain ⟨_, _, _, _, _, ⟨base, counted⟩, _, _, _, _, _, _, _, _, _, _, done⟩ := accepted
    cases pure_eq_ok_iff.mp done
    exact ⟨base.symm, base ▸ counted⟩
  | reset =>
    obtain ⟨⟨_, _⟩, accepted, rfl⟩ := map_eq_ok_iff.mp applied
    simp only [applyResetToImage, bind_eq_ok_iff, reject_eq_ok_iff, not_or, not_not] at accepted
    obtain ⟨_, _, _, _, _, ⟨base, _, counted⟩, _, _, _, _, _, _, done⟩ := accepted
    cases pure_eq_ok_iff.mp done
    exact ⟨base.symm, base ▸ counted⟩

theorem epoch_of_run (ran : commands.foldlM (applyCommand sha256) image = .ok next) :
    next.epoch = image.epoch + UInt64.ofNat commands.length := by
  induction commands generalizing image with
  | nil =>
    cases ran
    exact (UInt64.add_zero _).symm
  | cons command commands ih =>
    rw [List.foldlM_cons, bind_eq_ok_iff] at ran
    obtain ⟨middle, applied, ran⟩ := ran
    rw [ih ran, (epoch_of_applyCommand applied).2, List.length_cons, Nat.add_comm,
      UInt64.ofNat_add, ← UInt64.add_assoc]
    rfl

/-- In every run of accepted steps the epoch counts the steps, and a step that was accepted is
refused from then on, until all epochs are used up. -/
theorem applied_at_most_once (applied : applyCommand sha256 image command = .ok next)
    (ran : commands.foldlM (applyCommand sha256) next = .ok later)
    (few : commands.length + 1 < 2 ^ 64) :
    later.epoch = image.epoch + UInt64.ofNat (commands.length + 1) ∧
      ∃ error, applyCommand sha256 later command = .error error := by
  have counted := epoch_of_run (show (command :: commands).foldlM (applyCommand sha256) image =
    .ok later by rw [List.foldlM_cons, applied]; exact ran)
  refine ⟨counted, ?_⟩
  cases again : applyCommand sha256 later command with
  | error error => exact ⟨error, rfl⟩
  | ok =>
    have same := (epoch_of_applyCommand again).1.symm.trans (epoch_of_applyCommand applied).1
    rw [counted, List.length_cons] at same
    have wrapped := congrArg UInt64.toNat same
    rw [UInt64.toNat_add, UInt64.toNat_ofNat_of_lt' few] at wrapped
    have bound := image.epoch.toNat_lt
    omega

/-- The checkpoint that follows an unchanged one. -/
def secondCheckpoint : CheckpointBatch :=
  { sampleCheckpoint [.deleteScalar (ofByte 2)] [] with
    baseEpoch := 1, nextEpoch := 2, firstTurnSequence := 2, lastTurnSequence := 2 }

theorem refused_after_secondCheckpoint : ∃ later error,
    [.checkpoint (sampleCheckpoint [] []), .checkpoint secondCheckpoint].foldlM
      (applyCommand zeroHash) (.empty sampleApplication 1 (ofByte 7)) = .ok later ∧
    later.epoch = 2 ∧
    applyCommand zeroHash later (.checkpoint (sampleCheckpoint [] [])) = .error error := by
  have ran : [.checkpoint (sampleCheckpoint [] []), .checkpoint secondCheckpoint].foldlM
      (applyCommand zeroHash) (.empty sampleApplication 1 (ofByte 7)) = .ok _ := rfl
  have steps := ran
  rw [List.foldlM_cons] at steps
  obtain ⟨_, applied, rest⟩ := bind_eq_ok_iff.mp steps
  obtain ⟨counted, error, refused⟩ := applied_at_most_once applied rest (by decide)
  exact ⟨_, error, ran, counted, refused⟩

end BoonCircuit.Persistence
