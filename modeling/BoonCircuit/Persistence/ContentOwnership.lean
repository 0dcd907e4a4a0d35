import BoonCircuit.Persistence.ChangeInvariants
import BoonCircuit.Persistence.InMemoryDriver
import BoonCircuit.Persistence.StorageSpec

/-!
# Ownership of content artifacts

In every state that the in-memory driver reaches, each application's manifest is
backed by stored artifacts within the limits, and applications that do not exist
own nothing.  Failed commands leave images and artifacts alone, checkpoints keep
immutable bindings, and activations and compactions leave exactly the reachable
artifacts.
-/

namespace BoonCircuit.Persistence

open Data Lib Checks Action BTreeMap

namespace InMemoryDriver

variable {driver next : InMemoryDriver} {application other : ApplicationIdentity}
  {id : ContentArtifactId}
  {artifacts : ArtifactMap} {image : RestoreImage}

theorem getElem?_applicationArtifacts :
    (driver.applicationArtifacts application)[id]? =
      driver.artifacts[(⟨application, id⟩ : ArtifactKey)]? := by
  rw [applicationArtifacts, Std.ExtTreeMap.ofList_eq_foldl]
  refine (getElem?_writeAll_of_mem_iff
    (fun id => driver.artifacts[(⟨application, id⟩ : ArtifactKey)]?)
    fun entry => ?_).trans (by simp)
  simp only [List.mem_filterMap, Option.ite_none_right_eq_some, Option.some.injEq]
  constructor
  · rintro ⟨⟨_, _⟩, stored, rfl, rfl⟩
    exact mem_toList_iff.mp stored
  · intro stored
    exact ⟨_, mem_toList stored, rfl, rfl⟩

theorem getElem?_replaceApplicationArtifacts :
    (driver.replaceApplicationArtifacts application artifacts).artifacts[
        (⟨other, id⟩ : ArtifactKey)]? =
      if other = application then artifacts[id]?
      else driver.artifacts[(⟨other, id⟩ : ArtifactKey)]? := by
  rw [replaceApplicationArtifacts, getElem?_writeAll_of_mem_iff fun key =>
    if key.application = application then artifacts[key.id]? else none]
  · rw [getElem?_filter fun key : ArtifactKey => decide (key.application ≠ application)]
    by_cases own : other = application <;> simp [own]
  · rintro ⟨⟨owner, id⟩, artifact⟩
    simp only [List.mem_map, Option.ite_none_right_eq_some, Prod.mk.injEq, ArtifactKey.mk.injEq]
    constructor
    · rintro ⟨_, stored, ⟨rfl, rfl⟩, rfl⟩
      exact ⟨rfl, mem_toList_iff.mp stored⟩
    · rintro ⟨rfl, found⟩
      exact ⟨_, mem_toList found, ⟨rfl, rfl⟩, rfl⟩

theorem applicationArtifacts_replaceApplicationArtifacts :
    (driver.replaceApplicationArtifacts application artifacts).applicationArtifacts other =
      if other = application then artifacts else driver.applicationArtifacts other := by
  apply Std.ExtTreeMap.ext_getElem?
  intro id
  rw [getElem?_applicationArtifacts, getElem?_replaceApplicationArtifacts]
  split
  case isTrue => rfl
  case isFalse => exact getElem?_applicationArtifacts.symm

/-- Two drivers that store the same images and artifacts. -/
def SameStore (driver next : InMemoryDriver) : Prop :=
  next.applications = driver.applications ∧ next.artifacts = driver.artifacts

theorem SameStore.refl : SameStore driver driver :=
  ⟨rfl, rfl⟩

/-- The next driver differs in the image and the artifacts of one application. -/
structure Publishes (driver next : InMemoryDriver) (application : ApplicationIdentity)
    (image : RestoreImage) (artifacts : ArtifactMap) : Prop where
  images : ∀ other, next.applications[other]? =
    if application = other then some image else driver.applications[other]?
  owned : ∀ other, next.applicationArtifacts other =
    if other = application then artifacts else driver.applicationArtifacts other

theorem publishes_withImage :
    Publishes driver (driver.withImage application image) application image
      (driver.applicationArtifacts application) where
  images _ := getElem?_insert
  owned other := by
    split
    case isTrue same => exact same ▸ rfl
    case isFalse => rfl

theorem publishes_replaceApplicationArtifacts
    (found : driver.applications[application]? = some image) :
    Publishes driver (driver.replaceApplicationArtifacts application artifacts) application image
      artifacts where
  images other := by
    split
    case isTrue same => exact same ▸ found
    case isFalse => rfl
  owned _ := applicationArtifacts_replaceApplicationArtifacts

theorem publishes_both :
    Publishes driver
      ((driver.withImage application image).replaceApplicationArtifacts application artifacts)
      application image artifacts where
  images _ := getElem?_insert
  owned _ := applicationArtifacts_replaceApplicationArtifacts

theorem Publishes.found (published : Publishes driver next application image artifacts) :
    next.applications[application]? = some image :=
  (published.images application).trans (if_pos rfl)

theorem Publishes.mem_artifacts (published : Publishes driver next application image artifacts) :
    (⟨application, id⟩ : ArtifactKey) ∈ next.artifacts ↔ id ∈ artifacts := by
  have owned := (published.owned application).trans (if_pos rfl)
  rw [mem_iff_exists, mem_iff_exists, ← owned, getElem?_applicationArtifacts]

section Ownership

variable (sha256 : List UInt8 → Digest)

/-- Every application owns well-stored artifacts that back its manifest; unknown
applications own none. -/
structure DriverOk (driver : InMemoryDriver) : Prop where
  storage : ∀ application image,
    driver.applications[application]? = some image →
      StorageOk sha256 image.contentArtifactManifest (driver.applicationArtifacts application)
  unowned : ∀ application, application ∉ driver.applications →
    driver.applicationArtifacts application = ∅

/-- The store stays the same or changes at one application, consistently. -/
def Effect (driver next : InMemoryDriver) : Prop :=
  SameStore driver next ∨
    ∃ application image artifacts, Publishes driver next application image artifacts ∧
      StorageOk sha256 image.contentArtifactManifest artifacts

variable {sha256}

theorem driverOk_empty : DriverOk sha256 InMemoryDriver.empty where
  storage _ _ found := by cases found
  unowned _ _ := rfl

variable {driver next : InMemoryDriver} {application : ApplicationIdentity} {image : RestoreImage}
  {ack : CommitAck} {batch : CheckpointBatch} {request : CompactRequest} {α : Type}
  {method : DriverAction α} {error : StoreError} {wrap : Outcome α → PersistenceResult}
  {owner : ContentArtifactOwnerId} {id : ContentArtifactId} {command : PersistenceCommand}

theorem DriverOk.effect (ok : DriverOk sha256 driver)
    (effect : Effect sha256 driver next) : DriverOk sha256 next := by
  rcases effect with ⟨images_eq, artifacts_eq⟩ | ⟨application, image, _, published, storage⟩
  · have owned_eq : next.applicationArtifacts = driver.applicationArtifacts := by
      funext application
      rw [applicationArtifacts, artifacts_eq, applicationArtifacts]
    constructor
    · rw [images_eq, owned_eq]
      exact ok.storage
    · rw [images_eq, owned_eq]
      exact ok.unowned
  · constructor
    case storage =>
      intro other otherImage found
      rw [published.owned]
      rw [published.images] at found
      by_cases same : application = other
      · rw [if_pos same] at found
        cases found
        rwa [if_pos same.symm]
      · rw [if_neg same] at found
        rw [if_neg (Ne.symm same)]
        exact ok.storage other otherImage found
    case unowned =>
      intro other missing
      rw [mem_iff_exists, published.images] at missing
      by_cases same : application = other
      · exact absurd ⟨image, if_pos same⟩ missing
      · rw [if_neg same, ← mem_iff_exists] at missing
        rw [published.owned, if_neg (Ne.symm same)]
        exact ok.unowned other missing

theorem findImage_eq_ok_iff :
    findImage driver application = .ok image ↔ driver.applications[application]? = some image :=
  okOr_eq_ok_iff

theorem bindings_isEmpty_of_validateInitialImage
    (accepted : validateInitialImage sha256 image = .ok ()) :
    image.contentArtifactManifest.bindings.isEmpty = true := by
  simp only [validateInitialImage, check_bind_eq_ok_iff, invalidContentArtifact_eq_ok_iff,
    Bool.not_eq_false] at accepted
  exact accepted.2.2.2.2.2.2.2.2

theorem exec_initializeImage_ok
    (done : exec (initializeImage sha256 image) driver = (.ok ack, next)) :
    ack.throughTurnSequence = image.throughTurnSequence ∧
      (driver.applications[image.application]? = some image ∧ next = driver ∨
      image.application ∉ driver.applications ∧
      image.contentArtifactManifest.bindings.isEmpty = true ∧
      next = driver.withImage image.application image) := by
  rw [initializeImage, exec_attempt_bind_eq_ok_iff] at done
  rcases done with ⟨_, accepted, done⟩
  rw [exec_get_bind] at done
  cases found : driver.applications[image.application]? with
  | some =>
    simp only [found] at done
    split at done <;> cases done
    next same => exact ⟨same ▸ rfl, .inl ⟨same ▸ rfl, rfl⟩⟩
  | none =>
    simp only [found] at done
    cases done
    refine ⟨rfl, .inr ⟨?_, bindings_isEmpty_of_validateInitialImage accepted, rfl⟩⟩
    rw [mem_iff_exists, found]
    simp

theorem exec_commit_ok (done : exec (commit sha256 batch) driver = (.ok ack, next)) :
    ∃ image candidate, driver.applications[batch.application]? = some image ∧
      applyCheckpointToImage sha256 image batch = .ok (candidate, ack) ∧
      Publishes driver next batch.application candidate
        (driver.applicationArtifacts batch.application) ∧
      StorageOk sha256 candidate.contentArtifactManifest
        (driver.applicationArtifacts batch.application) := by
  simp only [commit, exec_get_bind, exec_attempt_bind_eq_ok_iff, findImage_eq_ok_iff,
    validateContentArtifactStorage_eq_ok_iff] at done
  rcases done with ⟨image, found, ⟨candidate, _⟩, applied, _, ⟨storage, _⟩, rfl, rfl⟩
  exact ⟨image, candidate, found, applied, publishes_withImage, storage⟩

theorem exec_activate_ok {batch : ActivationBatch}
    {ack : ActivationAck} (done : exec (activate sha256 batch) driver = (.ok ack, next)) :
    ∃ image candidate available, driver.applications[batch.application]? = some image ∧
      applyActivationToImage sha256 image batch = .ok (candidate, ack) ∧
      (∀ id ∈ candidate.contentArtifactManifest.reachableArtifactIds, id ∈ available) ∧
      Publishes driver next batch.application candidate
        (retainedArtifacts candidate.contentArtifactManifest available) ∧
      StorageOk sha256 candidate.contentArtifactManifest
        (retainedArtifacts candidate.contentArtifactManifest available) := by
  rw [activate, exec_get_bind] at done
  split at done
  case isTrue => cases done
  case isFalse =>
    simp only [exec_attempt_bind_eq_ok_iff, findImage_eq_ok_iff,
      validateContentArtifactStorage_eq_ok_iff, exactContentArtifactClosure_eq_ok_iff] at done
    rcases done with ⟨image, found, available, _, ⟨candidate, _⟩, applied, _, ⟨_, backed, rfl, _⟩,
      _, ⟨storage, _⟩, rfl, rfl⟩
    exact ⟨image, candidate, available, found, applied, backed, publishes_both, storage⟩

theorem effect_resetApplication {batch : ResetApplicationBatch} {ack : ResetApplicationAck}
    (done : exec (resetApplication sha256 batch) driver = (.ok ack, next)) :
    Effect sha256 driver next := by
  simp only [resetApplication, exec_get_bind, exec_attempt_bind_eq_ok_iff] at done
  rcases done with ⟨_, _, ⟨reset, _⟩, applied, rfl, rfl⟩
  refine .inr ⟨_, reset, ∅, publishes_both, storageOk_empty ?_⟩
  simp only [applyResetToImage, activateDefault, bind_eq_ok_iff, pure_eq_ok_iff] at applied
  rcases applied with
    ⟨_, valid, _, _, _, _, _, _, _, _, _, ⟨_, changed, _, _, _, _, rfl⟩, result_eq⟩
  cases result_eq
  simp only [validateReset, bind_eq_ok_iff] at valid
  rcases valid with ⟨_, _, _, accepted, _⟩
  rw [contentArtifactManifest_applyChanges changed]
  exact bindings_isEmpty_of_validateInitialImage accepted

theorem effect_putContentArtifact {request : PutContentArtifactRequest}
    {ack : PutContentArtifactAck}
    (done : exec (putContentArtifact sha256 request) driver = (.ok ack, next)) :
    Effect sha256 driver next := by
  simp only [putContentArtifact, exec_get_bind, exec_attempt_bind_eq_ok_iff, findImage_eq_ok_iff,
    validateContentArtifactStorage_eq_ok_iff] at done
  rcases done with ⟨_, _, image, found, artifacts, _, _, ⟨storage, _⟩, rfl, rfl⟩
  exact .inr ⟨_, image, artifacts, publishes_replaceApplicationArtifacts found, storage⟩

theorem exec_compact_ok {ack : CompactAck}
    (done : exec (compact sha256 request) driver = (.ok ack, next)) :
    ∃ image, driver.applications[request.application]? = some image ∧
      Publishes driver next request.application image
        (retainedArtifacts image.contentArtifactManifest
          (driver.applicationArtifacts request.application)) := by
  simp only [compact, exec_get_bind, exec_attempt_bind_eq_ok_iff, findImage_eq_ok_iff,
    exactContentArtifactClosure_eq_ok_iff] at done
  rcases done with ⟨image, found, _, ⟨_, _, rfl, _⟩, rfl, rfl⟩
  exact ⟨image, found, publishes_replaceApplicationArtifacts found⟩

/-- A failed method keeps the store.  Only an injected activation failure writes before it
fails, and it writes a flag. -/
def KeepsStore {α : Type} (method : DriverAction α) (driver : InMemoryDriver) : Prop :=
  ∀ error, (exec method driver).1 = .error error → SameStore driver (exec method driver).2

theorem keepsStore_of_failsClean (clean : FailsClean method driver) : KeepsStore method driver := by
  intro error failed
  rw [clean error failed]
  exact .refl

theorem keepsStore_initializeImage : KeepsStore (initializeImage sha256 image) driver := by
  apply keepsStore_of_failsClean
  simp only [initializeImage, failsClean_attempt_bind, failsClean_get_bind]
  intro _ _
  split
  · split <;> simp
  · simp

theorem keepsStore_commit : KeepsStore (commit sha256 batch) driver :=
  keepsStore_of_failsClean (by simp [commit])

theorem keepsStore_activate {batch : ActivationBatch} :
    KeepsStore (activate sha256 batch) driver := by
  intro error failed
  rw [activate, exec_get_bind] at failed ⊢
  split
  case isTrue => exact ⟨rfl, rfl⟩
  case isFalse regular =>
    rw [if_neg regular] at failed
    exact keepsStore_of_failsClean (by simp) error failed

theorem keepsStore_resetApplication {batch : ResetApplicationBatch} :
    KeepsStore (resetApplication sha256 batch) driver :=
  keepsStore_of_failsClean (by simp [resetApplication])

theorem keepsStore_putContentArtifact {request : PutContentArtifactRequest} :
    KeepsStore (putContentArtifact sha256 request) driver :=
  keepsStore_of_failsClean (by simp [putContentArtifact])

theorem keepsStore_compact : KeepsStore (compact sha256 request) driver :=
  keepsStore_of_failsClean (by simp [compact])

theorem exec_load_state {request : RestoreRequest} :
    (exec (load sha256 request) driver).2 = driver := by
  simp only [load, exec_get_bind, exec_attempt_bind]
  split
  · split <;> rfl
  · rfl

theorem exec_inspect_state {request : InspectRequest} :
    (exec (inspect sha256 request) driver).2 = driver := by
  rw [inspect, exec_get_bind]
  split
  · rw [exec_attempt_bind]
    split <;> rfl
  · rfl

theorem exec_exportApplication_state {request : ExportApplicationRequest} :
    (exec (exportApplication sha256 request) driver).2 = driver := by
  simp only [exportApplication, exec_get_bind, exec_attempt_bind]
  split
  · split
    · split <;> rfl
    · rfl
  · rfl

theorem exec_loadContentArtifact_state {request : LoadContentArtifactRequest} :
    (exec (loadContentArtifact sha256 request) driver).2 = driver := by
  simp only [loadContentArtifact, exec_get_bind, exec_attempt_bind]
  split
  · split <;> rfl
  · rfl

omit sha256 in
theorem exec_barrier_state {request : BarrierRequest} :
    (exec (barrier request) driver).2 = driver := by
  simp only [barrier, exec_get_bind, exec_attempt_bind]
  split
  · split <;> rfl
  · rfl

theorem DriverOk.exec_load_error {request : RestoreRequest} (ok : DriverOk sha256 driver)
    (failed : (exec (load sha256 request) driver).1 = .error error) : error = .schemaMismatch := by
  have stored : forSome driver.applications[request.application]? (fun image =>
      discard (validateContentArtifactStorage sha256 image.contentArtifactManifest
        (driver.applicationArtifacts request.application))) = .ok () := by
    refine forSome_eq_ok_iff.mpr fun image found => discard_eq_ok_iff.mpr ?_
    exact ⟨_, validateContentArtifactStorage_eq_ok_iff.mpr ⟨ok.storage _ _ found, rfl⟩⟩
  simp only [load, exec_get_bind, exec_attempt_bind, stored] at failed
  split at failed
  case h_1 => cases failed
  case h_2 refused =>
    cases failed
    rcases forSome_eq_error_iff.mp refused with ⟨image, _, mismatch⟩
    rcases forSome_eq_error_iff.mp mismatch with ⟨_, _, rejected⟩
    exact (reject_eq_error_iff.mp rejected).2

theorem DriverOk.exec_inspect_error {request : InspectRequest} (ok : DriverOk sha256 driver) :
    (exec (inspect sha256 request) driver).1 ≠ .error error := by
  intro failed
  rw [inspect, exec_get_bind] at failed
  cases found : driver.applications[request.application]? with
  | none =>
    simp only [found] at failed
    cases failed
  | some =>
    have stored := validateContentArtifactStorage_eq_ok_iff.mpr ⟨ok.storage _ _ found, rfl⟩
    simp only [found, stored] at failed
    cases failed

theorem DriverOk.exec_compact_error (ok : DriverOk sha256 driver)
    (failed : (exec (compact sha256 request) driver).1 = .error error) :
    error = .missingApplication := by
  rw [compact, exec_get_bind, findImage] at failed
  cases found : driver.applications[request.application]? with
  | none =>
    simp only [found] at failed
    cases failed
    rfl
  | some =>
    simp only [found, okOr, exec_attempt_bind, (ok.storage _ _ found).closure] at failed
    cases failed

/-- A result constructor that shows the error of its outcome. -/
structure Reports {α : Type} (wrap : Outcome α → PersistenceResult) : Prop where
  ok : ∀ result, (wrap (.ok result)).error? = none
  error : ∀ error, (wrap (.error error)).error? = some error

omit sha256 in
theorem Reports.answer_error (reports : Reports wrap)
    (failed : (answer wrap method driver).1.error? = some error) :
    (exec method driver).1 = .error error := by
  change (wrap (exec method driver).1).error? = some error at failed
  cases outcome : (exec method driver).1 with
  | ok =>
    rw [outcome, reports.ok] at failed
    cases failed
  | error =>
    rw [outcome, reports.error] at failed
    cases failed
    rfl

omit sha256 in
theorem Reports.exists_exec {closed : Bool} {refusal : StoreError} (reports : Reports wrap)
    (succeeded : (if closed then (wrap (.error refusal), driver)
      else answer wrap method driver).1.error? = none) :
    ∃ result, exec method driver = (.ok result,
      (if closed then (wrap (.error refusal), driver) else answer wrap method driver).2) := by
  cases closed with
  | true => cases (reports.error refusal).symm.trans succeeded
  | false =>
    change (wrap (exec method driver).1).error? = none at succeeded
    cases outcome : (exec method driver).1 with
    | ok result => exact ⟨result, Prod.ext outcome rfl⟩
    | error =>
      rw [outcome, reports.error] at succeeded
      cases succeeded

variable (sha256) in
/-- A consistent change of the store, and none at all if an error is reported. -/
def Step (driver : InMemoryDriver) (outcome : PersistenceResult × InMemoryDriver) : Prop :=
  Effect sha256 driver outcome.2 ∧ (outcome.1.error? ≠ none → SameStore driver outcome.2)

theorem step_of_sameStore {outcome : PersistenceResult × InMemoryDriver}
    (same : SameStore driver outcome.2) : Step sha256 driver outcome :=
  ⟨.inl same, fun _ => same⟩

/-- A method that keeps the store on failure and changes it consistently on success. -/
theorem step_of_keepsStore (shown : ∀ result, (wrap (.ok result)).error? = none)
    (keeps : KeepsStore method driver)
    (changes : ∀ {result next}, exec method driver = (.ok result, next) →
      Effect sha256 driver next) : Step sha256 driver (answer wrap method driver) := by
  cases outcome : (exec method driver).1 with
  | error error => exact step_of_sameStore (keeps error outcome)
  | ok result =>
    refine ⟨changes (Prod.ext outcome rfl), fun failed => absurd ?_ failed⟩
    change (wrap (exec method driver).1).error? = none
    rw [outcome, shown]

theorem step_of_read (reads : (exec method driver).2 = driver) :
    Step sha256 driver (answer wrap method driver) := by
  apply step_of_sameStore
  change SameStore driver (exec method driver).2
  rw [reads]
  exact .refl

/-- One command changes a consistent store consistently. -/
theorem DriverOk.step (ok : DriverOk sha256 driver) (command : PersistenceCommand) :
    Step sha256 driver (execute sha256 driver command) := by
  unfold execute
  split
  case isTrue => exact step_of_sameStore .refl
  case isFalse =>
    cases command with
    | load => exact step_of_read exec_load_state
    | barrier => exact step_of_read exec_barrier_state
    | inspect => exact step_of_read exec_inspect_state
    | exportApplication => exact step_of_read exec_exportApplication_state
    | loadContentArtifact => exact step_of_read exec_loadContentArtifact_state
    | initializeImage =>
      refine step_of_keepsStore (fun _ => rfl) keepsStore_initializeImage fun done => ?_
      rcases (exec_initializeImage_ok done).2 with ⟨_, rfl⟩ | ⟨missing, unbound, rfl⟩
      · exact .inl .refl
      · refine .inr ⟨_, _, _, publishes_withImage, ?_⟩
        rw [ok.unowned _ missing]
        exact storageOk_empty unbound
    | commit =>
      refine step_of_keepsStore (fun _ => rfl) keepsStore_commit fun done => ?_
      rcases exec_commit_ok done with ⟨_, _, _, _, changed⟩
      exact .inr ⟨_, _, _, changed⟩
    | activate =>
      refine step_of_keepsStore (fun _ => rfl) keepsStore_activate fun done => ?_
      rcases exec_activate_ok done with ⟨_, _, _, _, _, _, changed⟩
      exact .inr ⟨_, _, _, changed⟩
    | resetApplication =>
      exact step_of_keepsStore (fun _ => rfl) keepsStore_resetApplication effect_resetApplication
    | putContentArtifact =>
      exact step_of_keepsStore (fun _ => rfl) keepsStore_putContentArtifact
        effect_putContentArtifact
    | compact =>
      refine step_of_keepsStore (fun _ => rfl) keepsStore_compact fun done => ?_
      rcases exec_compact_ok done with ⟨_, found, published⟩
      exact .inr ⟨_, _, _, published, (ok.storage _ _ found).retained⟩
    | shutdown => exact step_of_sameStore ⟨rfl, rfl⟩

variable (sha256) in
/-- The driver after some commands, started empty. -/
def run (commands : List PersistenceCommand) : InMemoryDriver :=
  commands.foldl (fun driver command => (execute sha256 driver command).2) .empty

theorem driverOk_run {commands : List PersistenceCommand} :
    DriverOk sha256 (run sha256 commands) := by
  unfold run
  induction commands using List.reverseRecOn with
  | nil => exact driverOk_empty
  | append_singleton commands command ih =>
    rw [List.foldl_append]
    exact ih.effect (ih.step command).1

omit sha256 in
theorem immutable_applyContentArtifactChange {manifest next : ContentArtifactManifest}
    {change : DurableContentArtifactChange}
    (bound : manifest.bindings[owner]? = some ⟨id, .immutable⟩)
    (applied : applyContentArtifactChange manifest change = .ok next) :
    next.bindings[owner]? = some ⟨id, .immutable⟩ := by
  -- A change that is accepted at the owner itself finds no immutable binding there.
  cases change with
  | setReplaceable changed =>
    simp only [applyContentArtifactChange] at applied
    split at applied
    case h_1 => cases applied
    case h_2 movable =>
      cases applied
      have other : changed ≠ owner := fun same => movable id (same ▸ bound)
      rw [getElem?_insert, if_neg other, bound]
  | insertImmutable changed =>
    simp only [applyContentArtifactChange] at applied
    split at applied
    case h_1 unbound =>
      cases applied
      have other : changed ≠ owner := by
        rintro rfl
        rw [unbound] at bound
        cases bound
      rw [getElem?_insert, if_neg other, bound]
    case h_2 =>
      split at applied <;> cases applied
      exact bound
    case h_3 => cases applied
  | release changed =>
    simp only [applyContentArtifactChange] at applied
    split at applied
    case h_1 => cases applied
    case h_2 artifactId replaceable =>
      split at applied <;> cases applied
      have other : changed ≠ owner := by
        rintro rfl
        rw [replaceable] at bound
        cases bound
      rw [getElem?_erase, if_neg other, bound]
    case h_3 => cases applied

theorem immutable_applyCheckpointToImage {candidate : RestoreImage}
    (bound : image.contentArtifactManifest.bindings[owner]? = some ⟨id, .immutable⟩)
    (applied : applyCheckpointToImage sha256 image batch = .ok (candidate, ack)) :
    candidate.contentArtifactManifest.bindings[owner]? = some ⟨id, .immutable⟩ := by
  simp only [applyCheckpointToImage, bind_eq_ok_iff] at applied
  rcases applied with
    ⟨_, _, _, _, _, _, _, _, _, _, _, changed, _, _, manifest, manifest_eq, _, _, result_eq⟩
  cases result_eq
  simp only [applyDurableContentArtifactChanges, bind_eq_ok_iff, pure_eq_ok_iff] at manifest_eq
  rcases manifest_eq with ⟨_, folded, _, _, rfl⟩
  rw [contentArtifactManifest_applyChanges changed] at folded
  exact foldlM_invariant (fun manifest => manifest.bindings[owner]? = some ⟨id, .immutable⟩)
    (fun _ _ _ _ => immutable_applyContentArtifactChange) bound folded

theorem DriverOk.immutable_commit (ok : DriverOk sha256 driver)
    (found : driver.applications[application]? = some image)
    (bound : image.contentArtifactManifest.bindings[owner]? = some ⟨id, .immutable⟩) :
    ∃ next, (execute sha256 driver (.commit batch)).2.applications[application]? = some next ∧
      next.contentArtifactManifest.bindings[owner]? = some ⟨id, .immutable⟩ := by
  cases failed : (execute sha256 driver (.commit batch)).1.error? with
  | some =>
    rw [((ok.step _).2 (by simp [failed])).1]
    exact ⟨image, found, bound⟩
  | none =>
    rcases Reports.exists_exec ⟨fun _ => rfl, fun _ => rfl⟩ failed with ⟨ack, done⟩
    rcases exec_commit_ok done with ⟨_, candidate, current_eq, applied, published, _⟩
    have images := published.images application
    change (execute _ _ _).2.applications[application]? = _ at images
    split at images
    case isTrue same =>
      rw [← same, current_eq] at found
      cases found
      exact ⟨candidate, images, immutable_applyCheckpointToImage bound applied⟩
    case isFalse => exact ⟨image, images.trans found, bound⟩

/-- An application stores exactly the artifacts that its manifest reaches. -/
def ExactlyReachable (driver : InMemoryDriver) (application : ApplicationIdentity) : Prop :=
  ∃ image, driver.applications[application]? = some image ∧
    ∀ id, (⟨application, id⟩ : ArtifactKey) ∈ driver.artifacts ↔
      id ∈ image.contentArtifactManifest.reachableArtifactIds

theorem exactlyReachable_of_publishes {available : ArtifactMap}
    (backed : ∀ id ∈ image.contentArtifactManifest.reachableArtifactIds, id ∈ available)
    (published : Publishes driver next application image
      (retainedArtifacts image.contentArtifactManifest available)) :
    ExactlyReachable next application := by
  refine ⟨image, published.found, fun id => ?_⟩
  rw [published.mem_artifacts, retainedArtifacts,
    mem_filter fun id => image.contentArtifactManifest.reachableArtifactIds.contains id]
  exact ⟨And.left, fun reachable => ⟨reachable, backed id reachable⟩⟩

theorem exactlyReachable_activate {batch : ActivationBatch}
    (succeeded : (execute sha256 driver (.activate batch)).1.error? = none) :
    ExactlyReachable (execute sha256 driver (.activate batch)).2 batch.application := by
  rcases Reports.exists_exec ⟨fun _ => rfl, fun _ => rfl⟩ succeeded with ⟨ack, done⟩
  rcases exec_activate_ok done with ⟨_, _, _, _, _, backed, published, _⟩
  exact exactlyReachable_of_publishes backed published

theorem DriverOk.exactlyReachable_compact (ok : DriverOk sha256 driver)
    (succeeded : (execute sha256 driver (.compact request)).1.error? = none) :
    ExactlyReachable (execute sha256 driver (.compact request)).2 request.application := by
  rcases Reports.exists_exec ⟨fun _ => rfl, fun _ => rfl⟩ succeeded with ⟨ack, done⟩
  rcases exec_compact_ok done with ⟨_, found, published⟩
  exact exactlyReachable_of_publishes (ok.storage _ _ found).backed published

/-- Commands that read the artifacts of an application as a whole. -/
def ReadsStorage : PersistenceCommand → Prop
  | .load _ => True
  | .inspect _ => True
  | .compact _ => True
  | _ => False

theorem DriverOk.execute_readsStorage (ok : DriverOk sha256 driver)
    (reads : ReadsStorage command) (failed : (execute sha256 driver command).1.error? = some error)
    : error = .closed ∨ error = .schemaMismatch ∨ error = .missingApplication := by
  unfold execute at failed
  split at failed
  case isTrue => cases command <;> cases failed <;> exact .inl rfl
  case isFalse =>
    cases command with
    | load =>
      have raised := Reports.answer_error ⟨fun _ => rfl, fun _ => rfl⟩ failed
      exact .inr (.inl (ok.exec_load_error raised))
    | inspect =>
      have raised := Reports.answer_error ⟨fun _ => rfl, fun _ => rfl⟩ failed
      exact absurd raised ok.exec_inspect_error
    | compact =>
      have raised := Reports.answer_error ⟨fun _ => rfl, fun _ => rfl⟩ failed
      exact .inr (.inr (ok.exec_compact_error raised))
    | _ => exact reads.elim

/-- The counts and byte totals of an application's artifacts are within the limits. -/
def WithinLimits (driver : InMemoryDriver) (application : ApplicationIdentity)
    (manifest : ContentArtifactManifest) : Prop :=
  let entries := (driver.applicationArtifacts application).toList
  let retained := retainedEntries manifest.reachableArtifactIds entries
  let staged := stagedEntries manifest.reachableArtifactIds entries
  retained.length ≤ maxRetainedContentArtifacts ∧
    contentBytes retained ≤ maxRetainedContentArtifactBytes ∧
    staged.length ≤ maxStagedContentArtifacts ∧
    contentBytes staged ≤ maxStagedContentArtifactBytes

theorem DriverOk.stored_eq (ok : DriverOk sha256 driver) {key : ArtifactKey}
    {artifact : ContentArtifact} (stored : driver.artifacts[key]? = some artifact) :
    key.id = artifact.id ∧ validateContentArtifact sha256 artifact = .ok () := by
  rcases key with ⟨application, id⟩
  rw [← getElem?_applicationArtifacts] at stored
  cases found : driver.applications[application]? with
  | some => exact (ok.storage _ _ found).stored id artifact stored
  | none =>
    have missing : application ∉ driver.applications := by
      rw [mem_iff_exists, found]
      simp
    rw [ok.unowned application missing] at stored
    cases stored

/-- Content ownership in every state that the driver reaches from the empty store, and
for every command executed there. -/
theorem content_owned_in_every_run (sha256 : List UInt8 → Digest)
    (commands : List PersistenceCommand) :
    let driver := run sha256 commands
    (∀ (application : ApplicationIdentity) (image : RestoreImage),
      driver.applications[application]? = some image →
        (∀ (owner : ContentArtifactOwnerId) (binding : ContentArtifactBinding),
          image.contentArtifactManifest.bindings[owner]? = some binding →
            (⟨application, binding.artifactId⟩ : ArtifactKey) ∈ driver.artifacts) ∧
        WithinLimits driver application image.contentArtifactManifest) ∧
    (∀ (key : ArtifactKey) (artifact : ContentArtifact),
      driver.artifacts[key]? = some artifact →
        key.id = artifact.id ∧ validateContentArtifact sha256 artifact = .ok ()) ∧
    (∀ (command : PersistenceCommand) (detail : String), ReadsStorage command →
      (execute sha256 driver command).1.error? ≠ some (.invalidContentArtifact detail)) ∧
    (∀ (command : PersistenceCommand) (error : StoreError),
      (execute sha256 driver command).1.error? = some error →
        (execute sha256 driver command).2.applications = driver.applications ∧
        (execute sha256 driver command).2.artifacts = driver.artifacts) ∧
    (∀ (batch : CheckpointBatch) (application : ApplicationIdentity) (image : RestoreImage)
      (owner : ContentArtifactOwnerId) (id : ContentArtifactId),
      driver.applications[application]? = some image →
      image.contentArtifactManifest.bindings[owner]? = some ⟨id, .immutable⟩ →
        ∃ next, (execute sha256 driver (.commit batch)).2.applications[application]? = some next ∧
          next.contentArtifactManifest.bindings[owner]? = some ⟨id, .immutable⟩) ∧
    (∀ batch : ActivationBatch, (execute sha256 driver (.activate batch)).1.error? = none →
      ExactlyReachable (execute sha256 driver (.activate batch)).2 batch.application) ∧
    (∀ request : CompactRequest, (execute sha256 driver (.compact request)).1.error? = none →
      ExactlyReachable (execute sha256 driver (.compact request)).2 request.application) := by
  intro driver
  have ok : DriverOk sha256 driver := driverOk_run
  refine ⟨?_, fun _ _ => ok.stored_eq, ?_, fun command _ failed =>
    (ok.step command).2 (by simp [failed]), fun _ _ _ _ _ => ok.immutable_commit,
    fun _ => exactlyReachable_activate,
    fun _ => ok.exactlyReachable_compact⟩
  · intro application image found
    have storage := ok.storage application image found
    refine ⟨fun owner binding bound => ?_, storage.retainedCount, storage.retainedBytes,
      storage.stagedCount, storage.stagedBytes⟩
    have backed := storage.backed _ (mem_reachableArtifactIds.mpr ⟨owner, binding, bound, rfl⟩)
    rwa [mem_iff_exists, getElem?_applicationArtifacts, ← mem_iff_exists] at backed
  · intro command detail reads failed
    rcases ok.execute_readsStorage reads failed with error_eq | error_eq | error_eq <;>
      cases error_eq

end Ownership

end InMemoryDriver

end BoonCircuit.Persistence
