import BoonCircuit.Lib.Overlay
import BoonCircuit.Persistence.Artifacts

/-!
# What artifact storage validation accepts

`StorageOk` states the accepted pairs of a manifest and stored artifacts without
counters: every artifact is stored under its content identity, every binding is
backed by an artifact, and the owned and the staged artifacts stay within their
limits.  The exact closure of an accepted pair exists, holds exactly the owned
artifacts and is accepted again.
-/

namespace BoonCircuit.Persistence

open List hiding getElem?_insert
open Data Lib Checks BTreeMap

theorem invalidContentArtifact_eq_ok_iff {fault : Prop} [Decidable fault] {detail : String}
    {done : Unit} : invalidContentArtifact fault detail = .ok done ↔ ¬ fault :=
  reject_eq_ok_iff

section Storage

variable {sha256 : List UInt8 → Digest}

variable (sha256) in
/-- The artifact is stored under its content identity and is well formed. -/
def StoredProperly (entry : ContentArtifactId × ContentArtifact) : Prop :=
  entry.1 = entry.2.id ∧ validateContentArtifact sha256 entry.2 = .ok ()

/-- The number of content bytes. -/
def contentBytes (entries : List (ContentArtifactId × ContentArtifact)) : Nat :=
  (entries.map fun entry => entry.2.bytes.length).sum

/-- The entries that the manifest keeps alive. -/
def retainedEntries (reachable : BTreeSet ContentArtifactId)
    (entries : List (ContentArtifactId × ContentArtifact)) :
    List (ContentArtifactId × ContentArtifact) :=
  entries.filter fun entry => reachable.contains entry.1

/-- The entries that no binding keeps alive. -/
def stagedEntries (reachable : BTreeSet ContentArtifactId)
    (entries : List (ContentArtifactId × ContentArtifact)) :
    List (ContentArtifactId × ContentArtifact) :=
  entries.filter fun entry => !reachable.contains entry.1

theorem contentBytes_append {first second : List (ContentArtifactId × ContentArtifact)} :
    contentBytes (first ++ second) = contentBytes first + contentBytes second := by
  simp [contentBytes]

theorem contentBytes_split (reachable : BTreeSet ContentArtifactId)
    (entries : List (ContentArtifactId × ContentArtifact)) :
    contentBytes entries =
      contentBytes (retainedEntries reachable entries) +
        contentBytes (stagedEntries reachable entries) := by
  induction entries with
  | nil => rfl
  | cons entry entries ih =>
    unfold contentBytes retainedEntries stagedEntries at ih ⊢
    cases kept : reachable.contains entry.1 <;> simp [kept] at ih ⊢ <;> omega

/-- A count in a machine word that stops at the largest one. -/
def wordCount (entries : List (ContentArtifactId × ContentArtifact)) : Nat :=
  min entries.length (wordLimit - 1)

/-- The counters after some entries have been scanned. -/
def scannedStats (owners : Nat) (reachable : BTreeSet ContentArtifactId)
    (entries : List (ContentArtifactId × ContentArtifact)) : ContentArtifactStorageStats where
  totalCount := wordCount entries
  totalBytes := contentBytes entries
  ownerCount := owners
  retainedCount := wordCount (retainedEntries reachable entries)
  retainedBytes := contentBytes (retainedEntries reachable entries)
  orphanCount := wordCount (stagedEntries reachable entries)
  orphanBytes := contentBytes (stagedEntries reachable entries)

variable {artifact : ContentArtifact} {entries : List (ContentArtifactId × ContentArtifact)}
  {manifest : ContentArtifactManifest} {id : ContentArtifactId} {artifacts : ArtifactMap}
  {entry : ContentArtifactId × ContentArtifact} {reachable : BTreeSet ContentArtifactId}

theorem bytes_length_of_validateContentArtifact
    (valid : validateContentArtifact sha256 artifact = .ok ()) :
    artifact.bytes.length ≤ maxContentArtifactBytes := by
  simp only [validateContentArtifact, check_bind_eq_ok_iff, invalidContentArtifact_eq_ok_iff,
    not_lt] at valid
  exact valid.2.1

theorem checkedAddBytes_eq_ok_iff {total bytes result : Nat} {detail : String} :
    checkedAddBytes total bytes detail = .ok result ↔
      total + bytes < wordLimit ∧ result = total + bytes := by
  rw [checkedAddBytes, check_bind_eq_ok_iff, invalidContentArtifact_eq_ok_iff, pure_eq_ok_iff,
    not_le, eq_comm (a := result)]

theorem saturatingCount_wordCount :
    saturatingCount (wordCount entries) = wordCount (entries ++ [entry]) := by
  simp only [saturatingCount, wordCount, length_append, length_singleton]
  omega

theorem scanStoredArtifact_eq_ok_iff {owners : Nat} {next : ContentArtifactStorageStats} :
    scanStoredArtifact sha256 reachable (scannedStats owners reachable entries) entry = .ok next ↔
      StoredProperly sha256 entry ∧ contentBytes (entries ++ [entry]) < wordLimit ∧
        next = scannedStats owners reachable (entries ++ [entry]) := by
  rw [scanStoredArtifact, check_bind_eq_ok_iff, check_bind_eq_ok_iff,
    invalidContentArtifact_eq_ok_iff, not_not, ← and_assoc]
  refine and_congr_right fun stored => ?_
  have small := bytes_length_of_validateContentArtifact stored.2
  have exact_bytes : min entry.2.bytes.length (wordLimit - 1) = entry.2.bytes.length := by
    have : maxContentArtifactBytes ≤ wordLimit - 1 := by decide
    omega
  have single : contentBytes [entry] = entry.2.bytes.length := by simp [contentBytes]
  have split := contentBytes_split reachable entries
  rw [exact_bytes]
  unfold retainedEntries stagedEntries at split
  cases kept : reachable.contains entry.1
  all_goals
    simp only [kept, Bool.false_eq_true, if_true, if_false, bind_eq_ok_iff, pure_eq_ok_iff,
      checkedAddBytes_eq_ok_iff, scannedStats, retainedEntries, stagedEntries, filter_append,
      filter_cons, filter_nil, Bool.not_true, Bool.not_false, append_nil,
      contentBytes_append, ← saturatingCount_wordCount]
    constructor
    · rintro ⟨_, ⟨room, rfl⟩, _, ⟨_, rfl⟩, rfl⟩
      exact ⟨room, rfl⟩
    · rintro ⟨room, rfl⟩
      exact ⟨_, ⟨room, rfl⟩, _, ⟨by omega, rfl⟩, rfl⟩

/-- The whole scan: every artifact is stored properly and the bytes fit a machine word. -/
theorem foldlM_scanStoredArtifact_eq_ok_iff {owners : Nat} :
    ∀ {remaining entries : List (ContentArtifactId × ContentArtifact)}
      {final : ContentArtifactStorageStats}, contentBytes entries < wordLimit →
      (remaining.foldlM (scanStoredArtifact sha256 reachable)
          (scannedStats owners reachable entries) = .ok final ↔
        (∀ entry ∈ remaining, StoredProperly sha256 entry) ∧
          contentBytes (entries ++ remaining) < wordLimit ∧
          final = scannedStats owners reachable (entries ++ remaining)) := by
  intro remaining
  induction remaining with
  | nil =>
    intro entries final room
    simp [pure, Except.pure, room, eq_comm]
  | cons entry remaining ih =>
    intro entries final room
    simp only [foldlM_cons, bind_eq_ok_iff, scanStoredArtifact_eq_ok_iff, forall_mem_cons]
    constructor
    · rintro ⟨_, ⟨stored, here, rfl⟩, rest⟩
      rw [ih here, append_assoc] at rest
      exact ⟨⟨stored, rest.1⟩, rest.2⟩
    · rintro ⟨⟨stored, rest⟩, total, final_eq⟩
      have here : contentBytes (entries ++ [entry]) < wordLimit := by
        rw [append_cons, contentBytes_append] at total
        omega
      refine ⟨_, ⟨stored, here, rfl⟩, (ih here).mpr ⟨rest, ?_, ?_⟩⟩
      · rw [append_assoc]
        exact total
      · rw [append_assoc]
        exact final_eq

theorem mem_reachableArtifactIds :
    id ∈ manifest.reachableArtifactIds ↔
      ∃ (owner : ContentArtifactOwnerId) (binding : ContentArtifactBinding),
        manifest.bindings[owner]? = some binding ∧ binding.artifactId = id := by
  rw [ContentArtifactManifest.reachableArtifactIds, Std.ExtTreeSet.mem_ofList,
    contains_iff_mem, mem_map]
  constructor
  · rintro ⟨entry, member, rfl⟩
    exact ⟨entry.1, entry.2, mem_toList_iff.mp member, rfl⟩
  · rintro ⟨owner, binding, found, rfl⟩
    exact ⟨(owner, binding), mem_toList found, rfl⟩

variable (sha256) in
/-- Stored artifacts that fit a manifest. -/
structure StorageOk (manifest : ContentArtifactManifest) (artifacts : ArtifactMap) : Prop where
  owners : manifest.bindings.size ≤ maxContentArtifactOwners
  stored : ∀ id artifact, artifacts[id]? = some artifact → StoredProperly sha256 (id, artifact)
  backed : ∀ id ∈ manifest.reachableArtifactIds, id ∈ artifacts
  retainedCount : (retainedEntries manifest.reachableArtifactIds artifacts.toList).length ≤
    maxRetainedContentArtifacts
  retainedBytes : contentBytes (retainedEntries manifest.reachableArtifactIds artifacts.toList) ≤
    maxRetainedContentArtifactBytes
  stagedCount : (stagedEntries manifest.reachableArtifactIds artifacts.toList).length ≤
    maxStagedContentArtifacts
  stagedBytes : contentBytes (stagedEntries manifest.reachableArtifactIds artifacts.toList) ≤
    maxStagedContentArtifactBytes

theorem wordCount_le_iff {limit : Nat}
    (small : limit < wordLimit - 1) : wordCount entries ≤ limit ↔ entries.length ≤ limit := by
  unfold wordCount
  omega

theorem validateContentArtifactStorage_eq_ok_iff {stats : ContentArtifactStorageStats} :
    validateContentArtifactStorage sha256 manifest artifacts = .ok stats ↔
      StorageOk sha256 manifest artifacts ∧
        stats = scannedStats manifest.bindings.size manifest.reachableArtifactIds
          artifacts.toList := by
  have start : contentBytes [] < wordLimit := by decide
  have start_eq : (⟨0, 0, manifest.bindings.size, 0, 0, 0, 0⟩ : ContentArtifactStorageStats) =
      scannedStats manifest.bindings.size manifest.reachableArtifactIds [] := rfl
  have backed : ¬ (manifest.reachableArtifactIds.toList.any fun id => !artifacts.contains id) =
      true ↔ ∀ id ∈ manifest.reachableArtifactIds, id ∈ artifacts := by
    simp [Std.ExtTreeSet.mem_toList]
  have retained := @wordCount_le_iff
    (retainedEntries manifest.reachableArtifactIds artifacts.toList) maxRetainedContentArtifacts
    (by decide)
  have staged := @wordCount_le_iff
    (stagedEntries manifest.reachableArtifactIds artifacts.toList) maxStagedContentArtifacts
    (by decide)
  have split := contentBytes_split manifest.reachableArtifactIds artifacts.toList
  have scan := fun final => @foldlM_scanStoredArtifact_eq_ok_iff sha256
    manifest.reachableArtifactIds manifest.bindings.size artifacts.toList [] final start
  rw [validateContentArtifactStorage, check_bind_eq_ok_iff, validateContentArtifactManifest,
    bind_eq_ok_iff, start_eq]
  simp only [scan, check_bind_eq_ok_iff, invalidContentArtifact_eq_ok_iff, backed, not_or, not_lt,
    pure_eq_ok_iff, forall_mem_toList]
  constructor
  · rintro ⟨owners, _, ⟨stored, _, rfl⟩, bound, ⟨retainedCount, retainedBytes⟩,
      ⟨stagedCount, stagedBytes⟩, rfl⟩
    exact ⟨⟨owners, stored, bound, retained.mp retainedCount, retainedBytes,
      staged.mp stagedCount, stagedBytes⟩, rfl⟩
  · rintro ⟨ok, rfl⟩
    have room : contentBytes artifacts.toList < wordLimit := by
      have limits :
          maxRetainedContentArtifactBytes + maxStagedContentArtifactBytes < wordLimit := by
        decide
      have first := ok.retainedBytes
      have second := ok.stagedBytes
      omega
    exact ⟨ok.owners, _, ⟨ok.stored, room, rfl⟩, ok.backed,
      ⟨retained.mpr ok.retainedCount, ok.retainedBytes⟩,
      ⟨staged.mpr ok.stagedCount, ok.stagedBytes⟩, rfl⟩

/-- The stored artifacts that the manifest keeps alive. -/
def retainedArtifacts (manifest : ContentArtifactManifest) (artifacts : ArtifactMap) :
    ArtifactMap :=
  artifacts.filter fun id _ => manifest.reachableArtifactIds.contains id

theorem toList_retainedArtifacts :
    (retainedArtifacts manifest artifacts).toList =
      retainedEntries manifest.reachableArtifactIds artifacts.toList :=
  Std.ExtTreeMap.toList_filter

theorem retainedArtifacts_eq_some_iff :
    (retainedArtifacts manifest artifacts)[id]? = some artifact ↔
      id ∈ manifest.reachableArtifactIds ∧ artifacts[id]? = some artifact := by
  rw [retainedArtifacts, getElem?_filter_eq_some_iff fun id : ContentArtifactId =>
    manifest.reachableArtifactIds.contains id, Std.ExtTreeSet.contains_iff_mem]

private theorem lookup_insert {closure : ArtifactMap} {first : ContentArtifactId}
    {ids : List ContentArtifactId} (found : artifacts[first]? = some artifact) :
    (if id ∈ first :: ids then artifacts[id]? else closure[id]?) =
      if id ∈ ids then artifacts[id]? else (closure.insert first artifact)[id]? := by
  rw [getElem?_insert]
  by_cases same : first = id
  · subst same
    simp [found]
  · simp [same, Ne.symm same]

theorem foldlM_closeArtifact_eq_ok_iff {final : ArtifactMap} :
    ∀ {ids : List ContentArtifactId} {closure : ArtifactMap},
      ids.foldlM (closeArtifact artifacts) closure = .ok final ↔
        (∀ id ∈ ids, id ∈ artifacts) ∧
          ∀ id, final[id]? = if id ∈ ids then artifacts[id]? else closure[id]? := by
  intro ids
  induction ids with
  | nil =>
    intro closure
    simp only [foldlM_nil, pure_eq_ok_iff, not_mem_nil, false_imp_iff, implies_true, true_and]
    constructor
    · rintro rfl id
      rfl
    · intro same
      exact Std.ExtTreeMap.ext_getElem? fun id => (same id).symm
  | cons first ids ih =>
    intro closure
    simp only [foldlM_cons, closeArtifact, bind_eq_ok_iff, okOr_eq_ok_iff, pure_eq_ok_iff,
      ih, forall_mem_cons]
    constructor
    · rintro ⟨_, ⟨artifact, found, rfl⟩, members, lookup⟩
      exact ⟨⟨mem_iff_exists.mpr ⟨artifact, found⟩, members⟩,
        fun id => (lookup id).trans (lookup_insert found).symm⟩
    · rintro ⟨⟨member, members⟩, lookup⟩
      rcases mem_iff_exists.mp member with ⟨artifact, found⟩
      exact ⟨_, ⟨artifact, found, rfl⟩, members,
        fun id => (lookup id).trans (lookup_insert found)⟩

theorem exactContentArtifactClosure_eq_ok_iff {closure : ArtifactMap} :
    exactContentArtifactClosure sha256 manifest artifacts = .ok closure ↔
      validateContentArtifactManifest manifest = .ok () ∧
        (∀ id ∈ manifest.reachableArtifactIds, id ∈ artifacts) ∧
        closure = retainedArtifacts manifest artifacts ∧
        validateContentArtifactMap sha256 closure = .ok () := by
  have lookup_iff : (∀ id, closure[id]? =
      if id ∈ manifest.reachableArtifactIds.toList then artifacts[id]?
      else (∅ : ArtifactMap)[id]?) ↔ closure = retainedArtifacts manifest artifacts := by
    have retained : ∀ id, (retainedArtifacts manifest artifacts)[id]? =
        if id ∈ manifest.reachableArtifactIds.toList then artifacts[id]?
        else (∅ : ArtifactMap)[id]? := by
      intro id
      rw [retainedArtifacts, getElem?_filter fun id : ContentArtifactId =>
        manifest.reachableArtifactIds.contains id]
      simp [Std.ExtTreeSet.mem_toList]
    constructor
    · intro lookup
      exact Std.ExtTreeMap.ext_getElem? fun id => (lookup id).trans (retained id).symm
    · rintro rfl id
      exact retained id
  simp only [exactContentArtifactClosure, bind_eq_ok_iff, pure_eq_ok_iff,
    foldlM_closeArtifact_eq_ok_iff, Std.ExtTreeSet.mem_toList] at lookup_iff ⊢
  constructor
  · rintro ⟨_, manifestOk, _, ⟨backed, lookup⟩, _, mapOk, rfl⟩
    exact ⟨manifestOk, backed, lookup_iff.mp lookup, mapOk⟩
  · rintro ⟨manifestOk, backed, closure_eq, mapOk⟩
    exact ⟨(), manifestOk, closure, ⟨backed, lookup_iff.mpr closure_eq⟩, (), mapOk, rfl⟩

theorem foldlM_scanTransferArtifact_eq_ok_iff :
    ∀ {entries : List (ContentArtifactId × ContentArtifact)} {total final : Nat},
      total < wordLimit →
      (entries.foldlM (scanTransferArtifact sha256) total = .ok final ↔
        (∀ entry ∈ entries, StoredProperly sha256 entry) ∧
          total + contentBytes entries < wordLimit ∧ final = total + contentBytes entries) := by
  intro entries
  induction entries with
  | nil =>
    intro total final room
    simp [pure, Except.pure, contentBytes, room, eq_comm]
  | cons entry entries ih =>
    intro total final room
    have bytes : contentBytes (entry :: entries) =
        entry.2.bytes.length + contentBytes entries := by simp [contentBytes]
    simp only [foldlM_cons, scanTransferArtifact, bind_eq_ok_iff,
      invalidContentArtifact_eq_ok_iff, not_not, checkedAddBytes_eq_ok_iff, forall_mem_cons]
    constructor
    · rintro ⟨_, ⟨_, key, _, valid, here, rfl⟩, rest⟩
      rcases (ih here).mp rest with ⟨stored, fits, final_eq⟩
      exact ⟨⟨⟨key, valid⟩, stored⟩, by omega, by omega⟩
    · rintro ⟨⟨⟨key, valid⟩, stored⟩, fits, final_eq⟩
      have here : total + entry.2.bytes.length < wordLimit := by omega
      exact ⟨_, ⟨(), key, (), valid, here, rfl⟩, (ih here).mpr ⟨stored, by omega, by omega⟩⟩

theorem validateContentArtifactMap_eq_ok_iff :
    validateContentArtifactMap sha256 artifacts = .ok () ↔
      artifacts.size ≤ maxApplicationTransferArtifacts ∧
        (∀ id artifact, artifacts[id]? = some artifact → StoredProperly sha256 (id, artifact)) ∧
        contentBytes artifacts.toList ≤ maxApplicationTransferArtifactBytes := by
  have start : 0 < wordLimit := by decide
  have scan := fun final =>
    @foldlM_scanTransferArtifact_eq_ok_iff sha256 artifacts.toList 0 final start
  rw [validateContentArtifactMap, check_bind_eq_ok_iff, bind_eq_ok_iff]
  simp only [scan, invalidContentArtifact_eq_ok_iff, not_lt, Nat.zero_add, forall_mem_toList]
  constructor
  · rintro ⟨count, _, ⟨stored, _, rfl⟩, bytes⟩
    exact ⟨count, stored, bytes⟩
  · rintro ⟨count, stored, bytes⟩
    have limit : maxApplicationTransferArtifactBytes < wordLimit := by decide
    exact ⟨count, _, ⟨stored, by omega, rfl⟩, bytes⟩

/-- The closure of fitting artifacts exists and holds exactly the owned ones. -/
theorem StorageOk.closure (ok : StorageOk sha256 manifest artifacts) :
    exactContentArtifactClosure sha256 manifest artifacts =
      .ok (retainedArtifacts manifest artifacts) := by
  rw [exactContentArtifactClosure_eq_ok_iff, validateContentArtifactMap_eq_ok_iff,
    ← Std.ExtTreeMap.length_toList, toList_retainedArtifacts, validateContentArtifactManifest,
    invalidContentArtifact_eq_ok_iff, not_lt]
  refine ⟨ok.owners, ok.backed, rfl, ok.retainedCount, ?_, ok.retainedBytes⟩
  intro id artifact found
  exact ok.stored id artifact (retainedArtifacts_eq_some_iff.mp found).2

theorem StorageOk.retained (ok : StorageOk sha256 manifest artifacts) :
    StorageOk sha256 manifest (retainedArtifacts manifest artifacts) := by
  have retained : retainedEntries manifest.reachableArtifactIds
      (retainedArtifacts manifest artifacts).toList =
        retainedEntries manifest.reachableArtifactIds artifacts.toList := by
    rw [toList_retainedArtifacts]
    simp [retainedEntries]
  have staged : stagedEntries manifest.reachableArtifactIds
      (retainedArtifacts manifest artifacts).toList = [] := by
    rw [toList_retainedArtifacts]
    simp [retainedEntries, stagedEntries]
  constructor
  case owners => exact ok.owners
  case stored =>
    exact fun id artifact found => ok.stored id artifact (retainedArtifacts_eq_some_iff.mp found).2
  case backed =>
    intro id member
    rcases mem_iff_exists.mp (ok.backed id member) with ⟨artifact, found⟩
    exact mem_iff_exists.mpr ⟨artifact, retainedArtifacts_eq_some_iff.mpr ⟨member, found⟩⟩
  case retainedCount => exact retained ▸ ok.retainedCount
  case retainedBytes => exact retained ▸ ok.retainedBytes
  case stagedCount => rw [staged]; exact Nat.zero_le _
  case stagedBytes => rw [staged]; exact Nat.zero_le _

theorem storageOk_empty
    (unbound : manifest.bindings.isEmpty = true) : StorageOk sha256 manifest ∅ := by
  have bindings_eq := Std.ExtTreeMap.isEmpty_iff.mp unbound
  constructor
  case owners => simp [bindings_eq]
  case stored => simp
  case backed =>
    intro id member
    rcases mem_reachableArtifactIds.mp member with ⟨_, _, found, _⟩
    simp [bindings_eq] at found
  case retainedCount => exact Nat.zero_le _
  case retainedBytes => exact Nat.zero_le _
  case stagedCount => exact Nat.zero_le _
  case stagedBytes => exact Nat.zero_le _

end Storage

end BoonCircuit.Persistence
