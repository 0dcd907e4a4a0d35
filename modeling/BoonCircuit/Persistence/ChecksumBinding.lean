import BoonCircuit.Persistence.Batches
import BoonCircuit.Persistence.ChangeStreams

/-!
# What a batch checksum binds

The hashed stream of a batch determines every field of the batch once the
lengths of the lists that are hashed without a count are known: the changes of
every batch, and the migration edges and deleted memories of an activation.
Without these lengths one stream can be read as two different batches.
-/

namespace BoonCircuit.Persistence

open Data Lib Checks PrefixCode Digest List

private theorem peel_list {α : Type} {code : α → List UInt8} (delimited : Delimited code)
    {lefts rights : List α} {leftRest rightRest : List UInt8}
    (counts : lefts.length = rights.length) (short : Short 8 (lefts.flatMap code ++ leftRest))
    (same : lefts.flatMap code ++ leftRest = rights.flatMap code ++ rightRest) :
    lefts = rights ∧ leftRest = rightRest ∧ Short 8 leftRest := by
  rcases DelimitedAt.flatMap (fun left _ => delimited left) counts short same with ⟨items, rests⟩
  exact ⟨items, rests, short.of_append⟩

theorem checkpoint_eq_of_message_eq {left right : CheckpointBatch}
    (counts : left.changes.length = right.changes.length) (short : Short 8 (checkpointMessage left))
    (same : checkpointMessage left = checkpointMessage right) :
    { left with checksum := right.checksum } = right := by
  rcases right with ⟨_, _, _, _, _, _, _, _, _, _⟩
  simp only [checkpointMessage, append_assoc] at counts short same
  obtain ⟨rfl, same, short⟩ := delimited_application.peel short same
  obtain ⟨rfl, same, short⟩ := delimited_digest.peel short same
  iterate 4 obtain ⟨rfl, same, short⟩ := delimited_u64.peel short same
  obtain ⟨rfl, same, short⟩ := peel_list delimited_change counts short same
  obtain ⟨rfl, same, short⟩ := delimited_outboxChanges.peel short same
  obtain rfl := delimited_artifactChanges.injective short same
  rfl

private theorem eq_of_hasAuthority_eq_false {image : RestoreImage}
    (absent : image.hasAuthority = false) :
    image.scalars = ∅ ∧ image.lists = ∅ ∧ image.maps = ∅ ∧ image.sets = ∅ ∧
      image.completedMigrationEdges = ∅ ∧ image.outbox = ∅ := by
  simp only [RestoreImage.hasAuthority, Bool.or_eq_false_iff, Bool.not_eq_false',
    Std.ExtTreeMap.isEmpty_iff, Std.ExtTreeSet.isEmpty_iff, and_assoc] at absent
  exact ⟨absent.1, absent.2.1, absent.2.2.1, absent.2.2.2.1, absent.2.2.2.2.1, absent.2.2.2.2.2.1⟩

variable {sha256 : List UInt8 → Digest}

theorem validateReset_default {batch : ResetApplicationBatch}
    (checked : validateReset sha256 batch = .ok ()) : batch.defaultImage.hasAuthority = false := by
  simp only [validateReset, invalidAuthority, check_bind_eq_ok_iff] at checked
  simpa using checked.2.2.2.1

theorem reset_eq_of_message_eq {left right : ResetApplicationBatch}
    (leftDefault : left.defaultImage.hasAuthority = false)
    (rightDefault : right.defaultImage.hasAuthority = false)
    (counts : left.authorityChanges.length = right.authorityChanges.length)
    (short : Short 8 (resetMessage left)) (same : resetMessage left = resetMessage right) :
    { left with checksum := right.checksum } = right := by
  have leftEmpty := eq_of_hasAuthority_eq_false leftDefault
  have rightEmpty := eq_of_hasAuthority_eq_false rightDefault
  rcases left with ⟨_, _, _, _, ⟨_, _, _, _, _, _, _, _, _, _, _, _⟩, _, _, _, _⟩
  rcases right with ⟨_, _, _, _, ⟨_, _, _, _, _, _, _, _, _, _, _, _⟩, _, _, _, _⟩
  rcases leftEmpty with ⟨rfl, rfl, rfl, rfl, rfl, rfl⟩
  rcases rightEmpty with ⟨rfl, rfl, rfl, rfl, rfl, rfl⟩
  simp only [resetMessage, append_assoc] at counts short same
  replace short := short.of_append
  replace same := append_cancel_left same
  obtain ⟨rfl, same, short⟩ := delimited_application.peel short same
  iterate 2 obtain ⟨rfl, same, short⟩ := delimited_u64.peel short same
  obtain ⟨rfl, same, short⟩ := delimited_digest.peel short same
  obtain ⟨rfl, same, short⟩ := delimited_application.peel short same
  obtain ⟨rfl, same, short⟩ := delimited_u64.peel short same
  obtain ⟨rfl, same, short⟩ := delimited_digest.peel short same
  iterate 2 obtain ⟨rfl, same, short⟩ := delimited_u64.peel short same
  obtain ⟨rfl, same, short⟩ := delimited_manifest.peel short same
  obtain ⟨rfl, same, short⟩ := delimited_u64.peel short same
  obtain ⟨rfl, same, short⟩ := peel_list delimited_change counts short same
  obtain rfl := delimited_outboxChanges.injective short same
  rfl

private theorem delimited_suppliedArtifact :
    Delimited fun view : ContentArtifactId × String × List UInt8 =>
      view.1.bytes ++ (hashText view.2.1 ++ framed 8 view.2.2) := by
  have content := delimited_text.pair delimited_bytes
  have entry := delimited_digest.pair content
  exact entry

private theorem hashSuppliedArtifact_flatMap
    (entries : List (ContentArtifactId × ContentArtifact)) :
    entries.flatMap hashSuppliedArtifact =
      (entries.map fun entry => (entry.1, entry.2.mediaType, entry.2.bytes)).flatMap
        fun view => view.1.bytes ++ (hashText view.2.1 ++ framed 8 view.2.2) := by
  rw [flatMap_map]
  congr
  funext entry
  rw [hashSuppliedArtifact, append_assoc]

/-- Artifacts stored under their own identity are determined by what is hashed of them. -/
private theorem suppliedArtifacts_eq {lefts rights : ArtifactMap}
    (leftKeys : ∀ entry ∈ lefts.toList, entry.1 = entry.2.id)
    (rightKeys : ∀ entry ∈ rights.toList, entry.1 = entry.2.id)
    (short : Short 8 (lefts.toList.flatMap hashSuppliedArtifact))
    (same : lefts.toList.flatMap hashSuppliedArtifact =
      rights.toList.flatMap hashSuppliedArtifact) : lefts = rights := by
  rw [hashSuppliedArtifact_flatMap] at short
  rw [hashSuppliedArtifact_flatMap, hashSuppliedArtifact_flatMap] at same
  have views := delimited_suppliedArtifact.flatMap_injective
    (fun view => append_ne_nil_of_left_ne_nil view.1.bytes_ne_nil _) short same
  apply Std.ExtTreeMap.toList_inj.mp
  have restore : ∀ entries : List (ContentArtifactId × ContentArtifact),
      (∀ entry ∈ entries, entry.1 = entry.2.id) →
      (entries.map fun entry => (entry.1, entry.2.mediaType, entry.2.bytes)).map
        (fun view => (view.1, ContentArtifact.mk view.1 view.2.1 view.2.2)) = entries := by
    intro entries keys
    rw [map_map]
    apply (map_congr_left _).trans (map_id _)
    rintro ⟨key, ⟨_, _, _⟩⟩ member
    obtain rfl : key = _ := keys _ member
    rfl
  rw [← restore _ leftKeys, ← restore _ rightKeys, views]

theorem validateContentArtifactMap_keys {artifacts : ArtifactMap}
    (checked : validateContentArtifactMap sha256 artifacts = .ok ()) :
    ∀ entry ∈ artifacts.toList, entry.1 = entry.2.id := by
  simp only [validateContentArtifactMap, bind_eq_ok_iff] at checked
  rcases checked with ⟨_, _, _, scanned, _⟩
  intro entry member
  rcases exists_round_of_foldlM scanned entry member with ⟨_, _, round⟩
  simp only [scanTransferArtifact, check_bind_eq_ok_iff, invalidContentArtifact,
    reject_eq_ok_iff] at round
  exact not_not.mp round.1

theorem validateActivation_artifacts {batch : ActivationBatch}
    (checked : validateActivation sha256 batch = .ok ()) :
    ∀ entry ∈ batch.contentArtifacts.toList, entry.1 = entry.2.id := by
  simp only [validateActivation, check_bind_eq_ok_iff] at checked
  exact validateContentArtifactMap_keys checked.2.2.2.1

theorem activation_eq_of_message_eq {left right : ActivationBatch}
    (leftKeys : ∀ entry ∈ left.contentArtifacts.toList, entry.1 = entry.2.id)
    (rightKeys : ∀ entry ∈ right.contentArtifacts.toList, entry.1 = entry.2.id)
    (changeCounts : left.authorityChanges.length = right.authorityChanges.length)
    (edgeCounts : left.completedMigrationEdges.length = right.completedMigrationEdges.length)
    (memoryCounts : left.deletedMemory.length = right.deletedMemory.length)
    (short : Short 8 (activationMessage left))
    (same : activationMessage left = activationMessage right) :
    { left with checksum := right.checksum } = right := by
  rcases right with ⟨_, _, _, _, _, _, _, _, _, _, _, _, _, _⟩
  simp only [activationMessage, append_assoc] at short same
  replace short := short.of_append
  replace same := append_cancel_left same
  obtain ⟨rfl, same, short⟩ := delimited_application.peel short same
  iterate 2 obtain ⟨rfl, same, short⟩ := delimited_u64.peel short same
  obtain ⟨rfl, same, short⟩ := delimited_digest.peel short same
  obtain ⟨rfl, same, short⟩ := delimited_u64.peel short same
  obtain ⟨rfl, same, short⟩ := delimited_digest.peel short same
  obtain ⟨rfl, same, short⟩ := delimited_u64.peel short same
  obtain ⟨rfl, same, short⟩ := peel_list delimited_change changeCounts short same
  obtain ⟨rfl, same, short⟩ := delimited_outboxChanges.peel short same
  obtain ⟨rfl, same, short⟩ := peel_list delimited_digest edgeCounts short same
  obtain ⟨rfl, same, short⟩ := peel_list delimited_digest memoryCounts short same
  obtain ⟨rfl, same, short⟩ := delimited_manifest.peel short same
  obtain rfl := suppliedArtifacts_eq leftKeys rightKeys short same
  rfl

/-- Two batches with one hashed stream differ at most in their checksum exactly when the lists
hashed without a count have the same lengths. -/
theorem batch_eq_iff_of_message_eq (sha256 : List UInt8 → Digest) :
    (∀ left right : CheckpointBatch, Short 8 (checkpointMessage left) →
      checkpointMessage left = checkpointMessage right →
      ({ left with checksum := right.checksum } = right ↔
        left.changes.length = right.changes.length)) ∧
    (∀ left right : ResetApplicationBatch,
      validateReset sha256 (left.seal sha256) = .ok () →
      validateReset sha256 (right.seal sha256) = .ok () → Short 8 (resetMessage left) →
      resetMessage left = resetMessage right →
      ({ left with checksum := right.checksum } = right ↔
        left.authorityChanges.length = right.authorityChanges.length)) ∧
    (∀ left right : ActivationBatch,
      validateActivation sha256 (left.seal sha256) = .ok () →
      validateActivation sha256 (right.seal sha256) = .ok () → Short 8 (activationMessage left) →
      activationMessage left = activationMessage right →
      ({ left with checksum := right.checksum } = right ↔
        left.authorityChanges.length = right.authorityChanges.length ∧
        left.completedMigrationEdges.length = right.completedMigrationEdges.length ∧
        left.deletedMemory.length = right.deletedMemory.length)) := by
  refine ⟨?_, ?_, ?_⟩
  · intro left right short same
    constructor
    · intro equal
      rw [← equal]
    · intro counts
      exact checkpoint_eq_of_message_eq counts short same
  · intro left right leftChecked rightChecked short same
    constructor
    · intro equal
      rw [← equal]
    · intro counts
      have leftDefault := validateReset_default leftChecked
      have rightDefault := validateReset_default rightChecked
      exact reset_eq_of_message_eq leftDefault rightDefault counts short same
  · intro left right leftChecked rightChecked short same
    constructor
    · intro equal
      rw [← equal]
      exact ⟨rfl, rfl, rfl⟩
    · rintro ⟨changeCounts, edgeCounts, memoryCounts⟩
      have leftKeys := validateActivation_artifacts leftChecked
      have rightKeys := validateActivation_artifacts rightChecked
      exact activation_eq_of_message_eq leftKeys rightKeys changeCounts edgeCounts memoryCounts
        short same

/-- The constant hash. -/
def zeroHash (_ : List UInt8) : Digest :=
  ofByte 0

def sampleApplication : ApplicationIdentity := ⟨"notes", "state", "desk"⟩

/-- A checkpoint of turn one with the given changes. -/
def sampleCheckpoint (changes : List DurableChange)
    (contentArtifactChanges : List DurableContentArtifactChange) : CheckpointBatch where
  application := sampleApplication
  schemaHash := ofByte 7
  baseEpoch := 0
  nextEpoch := 1
  firstTurnSequence := 1
  lastTurnSequence := 1
  changes := changes
  outboxChanges := []
  contentArtifactChanges := contentArtifactChanges
  checksum := ofByte 0

/-- Stores 22 bytes in a memory whose identity looks like two counts. -/
def scalarCheckpoint : CheckpointBatch :=
  sampleCheckpoint
    [.setScalar ⟨List.replicate 14 0 ++ [1] ++ List.replicate 17 0, by decide⟩
      ⟨true, .bytes (List.replicate 22 120)⟩] []

/-- Binds an artifact to an owner; the identities spell the rest of the scalar. -/
def artifactCheckpoint : CheckpointBatch :=
  sampleCheckpoint []
    [.setReplaceable
      ⟨List.replicate 16 0 ++ [1, 22, 0, 0, 0, 0, 0, 0, 0, 22] ++ List.replicate 6 120, by decide⟩
      ⟨List.replicate 16 120 ++ List.replicate 16 0, by decide⟩]

/-- An activation of the sample application that only lists edges and deletions. -/
def sampleActivation (completedMigrationEdges : List MigrationEdgeId)
    (deletedMemory : List MemoryId) : ActivationBatch where
  application := sampleApplication
  expectedBaseEpoch := 0
  nextEpoch := 1
  sourceSchemaHash := ofByte 7
  targetSchemaVersion := 2
  targetSchemaHash := ofByte 8
  throughTurnSequence := 0
  authorityChanges := []
  outboxChanges := []
  completedMigrationEdges := completedMigrationEdges
  deletedMemory := deletedMemory
  targetContentArtifactManifest := ∅
  contentArtifacts := ∅
  checksum := ofByte 0

def sampleReset : ResetApplicationBatch where
  application := sampleApplication
  expectedBaseEpoch := 0
  nextEpoch := 1
  sourceSchemaHash := ofByte 7
  defaultImage := .empty sampleApplication 1 (ofByte 7)
  throughTurnSequence := 0
  authorityChanges := []
  outboxChanges := []
  checksum := ofByte 0

/-- A checkpoint that stores a scalar and one that binds an artifact share their stream, and so
do an activation that completes an edge and one that deletes a memory. -/
theorem distinct_batches_share_message :
    (∀ sha256, validateCheckpoint sha256 (scalarCheckpoint.seal sha256) = .ok () ∧
      validateCheckpoint sha256 (artifactCheckpoint.seal sha256) = .ok ()) ∧
    checkpointMessage scalarCheckpoint = checkpointMessage artifactCheckpoint ∧
    scalarCheckpoint.changes ≠ artifactCheckpoint.changes ∧
    (∀ sha256,
      validateActivation sha256 ((sampleActivation [ofByte 9] []).seal sha256) = .ok () ∧
      validateActivation sha256 ((sampleActivation [] [ofByte 9]).seal sha256) = .ok ()) ∧
    activationMessage (sampleActivation [ofByte 9] []) =
      activationMessage (sampleActivation [] [ofByte 9]) := by
  refine ⟨fun sha256 => ⟨?_, ?_⟩, rfl, by decide, fun sha256 => ⟨?_, ?_⟩, rfl⟩
  all_goals
    simp only [validateCheckpoint, validateActivation, check_bind_eq_ok_iff, reject_eq_ok_iff,
      not_not]
  · exact ⟨rfl, rfl⟩
  · exact ⟨rfl, rfl⟩
  · exact ⟨rfl, rfl, rfl, rfl, rfl⟩
  · exact ⟨rfl, rfl, rfl, rfl, rfl⟩

/-- A batch and its sealed copy, for each kind of batch. -/
theorem batch_eq_iff_of_message_eq_seal :
    { scalarCheckpoint with checksum := (scalarCheckpoint.seal zeroHash).checksum } =
      scalarCheckpoint.seal zeroHash ∧
    { sampleReset with checksum := (sampleReset.seal zeroHash).checksum } =
      sampleReset.seal zeroHash ∧
    { sampleActivation [ofByte 9] [] with
        checksum := ((sampleActivation [ofByte 9] []).seal zeroHash).checksum } =
      (sampleActivation [ofByte 9] []).seal zeroHash :=
  have binds := batch_eq_iff_of_message_eq zeroHash
  ⟨(binds.1 _ _ (by unfold Short; decide +kernel) rfl).mpr rfl,
    (binds.2.1 _ _ (by decide +kernel) (by decide +kernel) (by unfold Short; decide +kernel)
      rfl).mpr rfl,
    (binds.2.2 _ _ (by decide +kernel) (by decide +kernel) (by unfold Short; decide +kernel)
      rfl).mpr ⟨rfl, rfl, rfl⟩⟩

end BoonCircuit.Persistence
