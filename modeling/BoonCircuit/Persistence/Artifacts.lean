import BoonCircuit.Persistence.Hashing
import BoonCircuit.Persistence.Validation

/-!
# Content artifacts

Artifacts are stored by content identity and kept alive by the bindings of an
application's manifest.  Storage validation compares the two sides; the exact
closure keeps what the manifest reaches and nothing else.
-/

namespace BoonCircuit.Persistence

open Data Lib Checks

def maxContentArtifactMediaTypeBytes : Nat := 128
def maxContentArtifactBytes : Nat := 16 * 1024 * 1024
def maxContentArtifactOwners : Nat := 4096
def maxRetainedContentArtifacts : Nat := 4096
def maxRetainedContentArtifactBytes : Nat := 64 * 1024 * 1024
def maxStagedContentArtifacts : Nat := 4096
def maxStagedContentArtifactBytes : Nat := 64 * 1024 * 1024
def maxApplicationTransferArtifacts : Nat := 4096
def maxApplicationTransferArtifactBytes : Nat := 64 * 1024 * 1024

/-- A rejected artifact operation. -/
def invalidContentArtifact (fault : Prop) [Decidable fault] (detail : String) : Outcome Unit :=
  reject fault (.invalidContentArtifact detail)

/-- The artifacts that some binding keeps alive. -/
def ContentArtifactManifest.reachableArtifactIds (manifest : ContentArtifactManifest) :
    BTreeSet ContentArtifactId :=
  .ofList (manifest.bindings.toList.map fun entry => entry.2.artifactId) compare

def validateContentArtifactManifest (manifest : ContentArtifactManifest) : Outcome Unit :=
  invalidContentArtifact (maxContentArtifactOwners < manifest.bindings.size)
    (s!"content artifact manifest contains {manifest.bindings.size} owners, limit is " ++
      s!"{maxContentArtifactOwners}")

/-- The error of a binding that must not move. -/
def immutableOwner (action : String) (ownerId : ContentArtifactOwnerId) : StoreError :=
  .invalidContentArtifact s!"cannot {action} immutable artifact owner {ownerId}"

def applyContentArtifactChange (manifest : ContentArtifactManifest) :
    DurableContentArtifactChange → Outcome ContentArtifactManifest
  | .setReplaceable ownerId artifactId =>
    match manifest.bindings[ownerId]? with
    | some ⟨_, .immutable⟩ => .error (immutableOwner "replace" ownerId)
    | _ => .ok ⟨manifest.bindings.insert ownerId ⟨artifactId, .replaceable⟩⟩
  | .insertImmutable ownerId artifactId =>
    match manifest.bindings[ownerId]? with
    | none => .ok ⟨manifest.bindings.insert ownerId ⟨artifactId, .immutable⟩⟩
    | some ⟨existing, .immutable⟩ =>
      if existing = artifactId then .ok manifest else .error (immutableOwner "retarget" ownerId)
    | some ⟨_, .replaceable⟩ => .error (immutableOwner "retarget" ownerId)
  | .release ownerId expectedArtifactId =>
    match manifest.bindings[ownerId]? with
    | some ⟨_, .immutable⟩ => .error (immutableOwner "release" ownerId)
    | some ⟨artifactId, .replaceable⟩ =>
      if artifactId = expectedArtifactId then .ok ⟨manifest.bindings.erase ownerId⟩
      else .error (releaseMismatch ownerId expectedArtifactId)
    | none => .error (releaseMismatch ownerId expectedArtifactId)
where
  releaseMismatch (ownerId : ContentArtifactOwnerId) (expectedArtifactId : ContentArtifactId) :
      StoreError :=
    .invalidContentArtifact
      s!"artifact owner {ownerId} does not match compare-and-release artifact {expectedArtifactId}"

def applyDurableContentArtifactChanges (manifest : ContentArtifactManifest)
    (changes : List DurableContentArtifactChange) : Outcome ContentArtifactManifest := do
  let candidate ← changes.foldlM applyContentArtifactChange manifest
  validateContentArtifactManifest candidate
  pure candidate

/-- Addition that reports a sum outside the machine word. -/
def checkedAddBytes (total bytes : Nat) (detail : String) : Outcome Nat := do
  invalidContentArtifact (wordLimit ≤ total + bytes) detail
  pure (total + bytes)

/-- Addition of one that stops at the largest word. -/
def saturatingCount (count : Nat) : Nat :=
  min (count + 1) (wordLimit - 1)

section Storage

variable (sha256 : List UInt8 → Digest)

def validateContentArtifact (artifact : ContentArtifact) : Outcome Unit := do
  let mediaTypeBytes := (Text.utf8Bytes artifact.mediaType).length
  invalidContentArtifact (mediaTypeBytes = 0 ∨ maxContentArtifactMediaTypeBytes < mediaTypeBytes)
    s!"media type byte length {mediaTypeBytes} is outside 1..={maxContentArtifactMediaTypeBytes}"
  invalidContentArtifact (maxContentArtifactBytes < artifact.bytes.length)
    s!"artifact byte length {artifact.bytes.length} exceeds {maxContentArtifactBytes}"
  let expected := ContentArtifactId.forContent sha256 artifact.mediaType artifact.bytes
  invalidContentArtifact (artifact.id ≠ expected)
    s!"content digest {artifact.id} does not match payload digest {expected}"

/-- One artifact of a transfer: stored under its identity, well formed, counted. -/
def scanTransferArtifact (totalBytes : Nat) (entry : ContentArtifactId × ContentArtifact) :
    Outcome Nat := do
  invalidContentArtifact (entry.1 ≠ entry.2.id)
    "application transfer artifact key does not match its content ID"
  validateContentArtifact sha256 entry.2
  checkedAddBytes totalBytes entry.2.bytes.length
    "application transfer artifact byte count overflow"

def validateContentArtifactMap (artifacts : ArtifactMap) : Outcome Unit := do
  invalidContentArtifact (maxApplicationTransferArtifacts < artifacts.size)
    (s!"application transfer contains {artifacts.size} artifacts, limit is " ++
      s!"{maxApplicationTransferArtifacts}")
  let totalBytes ← artifacts.toList.foldlM (scanTransferArtifact sha256) 0
  invalidContentArtifact (maxApplicationTransferArtifactBytes < totalBytes)
    (s!"application transfer contains {totalBytes} artifact bytes, limit is " ++
      s!"{maxApplicationTransferArtifactBytes}")

structure ContentArtifactStorageStats where
  totalCount : Nat
  totalBytes : Nat
  ownerCount : Nat
  retainedCount : Nat
  retainedBytes : Nat
  orphanCount : Nat
  orphanBytes : Nat
  deriving DecidableEq

/-- One stored artifact: stored under its identity, well formed, counted on its side. -/
def scanStoredArtifact (reachable : BTreeSet ContentArtifactId)
    (stats : ContentArtifactStorageStats) (entry : ContentArtifactId × ContentArtifact) :
    Outcome ContentArtifactStorageStats := do
  invalidContentArtifact (entry.1 ≠ entry.2.id) "stored artifact key does not match its content ID"
  validateContentArtifact sha256 entry.2
  let bytes := min entry.2.bytes.length (wordLimit - 1)
  let totalBytes ← checkedAddBytes stats.totalBytes bytes "stored artifact byte count overflow"
  let stats := { stats with
    totalCount := saturatingCount stats.totalCount
    totalBytes := totalBytes }
  if reachable.contains entry.1 then do
    let retainedBytes ← checkedAddBytes stats.retainedBytes bytes
      "retained artifact byte count overflow"
    pure { stats with
      retainedCount := saturatingCount stats.retainedCount
      retainedBytes := retainedBytes }
  else do
    let orphanBytes ← checkedAddBytes stats.orphanBytes bytes
      "staged artifact byte count overflow"
    pure { stats with
      orphanCount := saturatingCount stats.orphanCount
      orphanBytes := orphanBytes }

def validateContentArtifactStorage (manifest : ContentArtifactManifest)
    (artifacts : ArtifactMap) : Outcome ContentArtifactStorageStats := do
  validateContentArtifactManifest manifest
  let reachable := manifest.reachableArtifactIds
  let stats ← artifacts.toList.foldlM (scanStoredArtifact sha256 reachable)
    ⟨0, 0, manifest.bindings.size, 0, 0, 0, 0⟩
  invalidContentArtifact (reachable.toList.any fun id => !artifacts.contains id)
    "content artifact manifest contains a dangling binding"
  invalidContentArtifact (maxRetainedContentArtifacts < stats.retainedCount ∨
      maxRetainedContentArtifactBytes < stats.retainedBytes)
    (s!"retained artifact closure contains {stats.retainedCount} artifacts and " ++
      s!"{stats.retainedBytes} bytes, limits are {maxRetainedContentArtifacts} artifacts and " ++
      s!"{maxRetainedContentArtifactBytes} bytes")
  invalidContentArtifact (maxStagedContentArtifacts < stats.orphanCount ∨
      maxStagedContentArtifactBytes < stats.orphanBytes)
    (s!"staged unowned artifacts contain {stats.orphanCount} artifacts and " ++
      s!"{stats.orphanBytes} bytes, limits are {maxStagedContentArtifacts} artifacts and " ++
      s!"{maxStagedContentArtifactBytes} bytes")
  pure stats

/-- Adds one reachable artifact to the closure. -/
def closeArtifact (artifacts closure : ArtifactMap) (id : ContentArtifactId) :
    Outcome ArtifactMap := do
  let artifact ← okOr artifacts[id]? (.invalidContentArtifact
    s!"content artifact manifest references missing artifact {id}")
  pure (closure.insert id artifact)

def exactContentArtifactClosure (manifest : ContentArtifactManifest) (artifacts : ArtifactMap) :
    Outcome ArtifactMap := do
  validateContentArtifactManifest manifest
  let closure ← manifest.reachableArtifactIds.toList.foldlM (closeArtifact artifacts) ∅
  validateContentArtifactMap sha256 closure
  pure closure

end Storage

end BoonCircuit.Persistence
