import BoonCircuit.Persistence.ContentOwnership
import BoonCircuit.Persistence.Coordinator.System

/-!
# What the coordinator relies on in a driver

A driver may refuse any command.  What it acknowledges has to be true: a commit is
acknowledged with its own numbers, an activation or a reset never goes back in the
turn sequence, and no other command moves the sequence.  The in-memory driver is
such a driver.
-/

namespace BoonCircuit.Persistence.Coordinator

open Data Lib Checks Action Function PersistenceResult BTreeMap

/-- The last durable turn of every application that a driver stores. -/
abbrev TurnView : Type :=
  ApplicationIdentity → Option UInt64

/-- The last durable turns after an answered command. -/
def TurnView.after (view : TurnView) (command : PersistenceCommand)
    (answer : PersistenceResult) : TurnView :=
  match command, answer with
  | .initializeImage image, .initialized (.ok ack) =>
    update view image.application (some ack.throughTurnSequence)
  | .commit batch, .committed (.ok ack) =>
    update view batch.application (some ack.throughTurnSequence)
  | .activate batch, .activated (.ok ack) =>
    update view batch.application (some ack.throughTurnSequence)
  | .resetApplication batch, .applicationReset (.ok ack) =>
    update view batch.application (some ack.throughTurnSequence)
  | _, _ => view

/-- A driver whose acknowledgements are true. -/
structure LawfulDriver {D : Type} (execute : D → PersistenceCommand → PersistenceResult × D)
    (through : D → TurnView) : Prop where
  moves : ∀ driver command, through (execute driver command).2 =
    (through driver).after command (execute driver command).1
  loaded : ∀ driver request image,
    (execute driver (.load request)).1 = .loaded (.ok (some image)) →
      through driver request.application = some image.throughTurnSequence
  initialized : ∀ driver image ack,
    (execute driver (.initializeImage image)).1 = .initialized (.ok ack) →
      ack.throughTurnSequence = image.throughTurnSequence
  committed : ∀ driver batch ack,
    (execute driver (.commit batch)).1 = .committed (.ok ack) →
      ack = ⟨batch.nextEpoch, batch.lastTurnSequence⟩
  activated : ∀ driver batch ack,
    (execute driver (.activate batch)).1 = .activated (.ok ack) →
      ∃ before, through driver batch.application = some before ∧ before ≤ ack.throughTurnSequence
  reset : ∀ driver batch ack,
    (execute driver (.resetApplication batch)).1 = .applicationReset (.ok ack) →
      ∃ before, through driver batch.application = some before ∧ before ≤ ack.throughTurnSequence

/-- The last durable turns that an in-memory driver stores. -/
def durableTurns (driver : InMemoryDriver) : TurnView :=
  fun application => driver.applications[application]?.map (·.throughTurnSequence)

variable {command : PersistenceCommand}

theorem TurnView.after_errorResult {view : TurnView}
    {error : StoreError} : view.after command (errorResult command error) = view := by
  cases command <;> rfl

namespace InMemory

open InMemoryDriver

variable {sha256 : List UInt8 → Digest} {driver next : InMemoryDriver} {image : RestoreImage}
  {ack : CommitAck}

theorem durableTurns_of_sameStore (same : SameStore driver next) :
    durableTurns next = durableTurns driver := by
  unfold durableTurns
  rw [same.1]

theorem durableTurns_of_images {application : ApplicationIdentity}
    (images : ∀ other, next.applications[other]? =
      if application = other then some image else driver.applications[other]?) :
    durableTurns next =
      update (durableTurns driver) application (some image.throughTurnSequence) := by
  funext other
  unfold durableTurns
  rw [images, update_apply]
  by_cases same : application = other
  · rw [if_pos same, if_pos same.symm]
    rfl
  · rw [if_neg same, if_neg (Ne.symm same)]

theorem exec_commit_acknowledged {batch : CheckpointBatch}
    (done : exec (commit sha256 batch) driver = (.ok ack, next)) :
    ack = ⟨batch.nextEpoch, batch.lastTurnSequence⟩ ∧
      durableTurns next = update (durableTurns driver) batch.application
        (some ack.throughTurnSequence) := by
  rcases exec_commit_ok done with ⟨_, _, _, applied, published, _⟩
  simp only [applyCheckpointToImage, bind_eq_ok_iff] at applied
  rcases applied with ⟨_, _, _, _, _, _, _, _, _, _, _, _, _, _, _, _, _, _, rfl, rfl⟩
  exact ⟨rfl, durableTurns_of_images published.images⟩

/-- An application of the driver has gone on to a turn. -/
def GoesOn (driver next : InMemoryDriver) (application : ApplicationIdentity)
    (turn : UInt64) : Prop :=
  (∃ before, durableTurns driver application = some before ∧ before ≤ turn) ∧
    durableTurns next = update (durableTurns driver) application (some turn)

theorem goesOn_of_images {application : ApplicationIdentity} {current : RestoreImage}
    {turn : UInt64} (found : driver.applications[application]? = some current)
    (onwards : ¬turn < current.throughTurnSequence) (moved : image.throughTurnSequence = turn)
    (images : ∀ other, next.applications[other]? =
      if application = other then some image else driver.applications[other]?) :
    GoesOn driver next application turn := by
  refine ⟨⟨_, by rw [durableTurns, found]; rfl, UInt64.not_lt.mp onwards⟩, ?_⟩
  rw [← moved]
  exact durableTurns_of_images images

theorem exec_activate_acknowledged {batch : ActivationBatch} {ack : ActivationAck}
    (done : exec (activate sha256 batch) driver = (.ok ack, next)) :
    GoesOn driver next batch.application ack.throughTurnSequence := by
  obtain ⟨_, _, _, found, applied, _, published, _⟩ := exec_activate_ok done
  simp only [applyActivationToImage, bind_eq_ok_iff, pure_eq_ok_iff, reject_eq_ok_iff,
    Prod.mk.injEq] at applied
  rcases applied with ⟨_, _, _, _, _, _, _, _, _, onwards, _, _, _, _, _, _, rfl, rfl⟩
  exact goesOn_of_images found onwards rfl published.images

theorem exec_resetApplication_acknowledged {batch : ResetApplicationBatch}
    {ack : ResetApplicationAck}
    (done : exec (resetApplication sha256 batch) driver = (.ok ack, next)) :
    GoesOn driver next batch.application ack.throughTurnSequence := by
  simp only [resetApplication, exec_get_bind, exec_attempt_bind_eq_ok_iff,
    findImage_eq_ok_iff] at done
  rcases done with ⟨current, found, ⟨reset, _⟩, applied, rfl, rfl⟩
  simp only [applyResetToImage, bind_eq_ok_iff, pure_eq_ok_iff, reject_eq_ok_iff,
    Prod.mk.injEq] at applied
  rcases applied with ⟨_, _, _, _, _, _, _, _, _, onwards, _, _, rfl, rfl⟩
  exact goesOn_of_images found onwards rfl fun _ => getElem?_insert

theorem exec_initializeImage_acknowledged
    (done : exec (initializeImage sha256 image) driver = (.ok ack, next)) :
    ack.throughTurnSequence = image.throughTurnSequence ∧
      durableTurns next = update (durableTurns driver) image.application
        (some ack.throughTurnSequence) := by
  obtain ⟨through_eq, ⟨found, rfl⟩ | ⟨_, _, rfl⟩⟩ := exec_initializeImage_ok done
  · refine ⟨through_eq, (update_eq_self_iff.mpr ?_).symm⟩
    rw [durableTurns, found, through_eq]
    rfl
  · refine ⟨through_eq, ?_⟩
    rw [through_eq]
    exact durableTurns_of_images fun _ => getElem?_insert

variable {α : Type} {wrap : Outcome α → PersistenceResult} {method : DriverAction α}

theorem durableTurns_answer (keeps : KeepsStore method driver)
    (refused : ∀ view : TurnView, ∀ error, view.after command (wrap (.error error)) = view)
    (moves : ∀ result next, exec method driver = (.ok result, next) →
      durableTurns next = (durableTurns driver).after command (wrap (.ok result))) :
    durableTurns (answer wrap method driver).2 =
      (durableTurns driver).after command (answer wrap method driver).1 := by
  change durableTurns (exec method driver).2 =
    (durableTurns driver).after command (wrap (exec method driver).1)
  cases outcome : (exec method driver).1 with
  | error error =>
    rw [refused]
    exact durableTurns_of_sameStore (keeps error outcome)
  | ok result => exact moves result _ (Prod.ext outcome rfl)

theorem durableTurns_read (reads : (exec method driver).2 = driver)
    (unmoved : ∀ view : TurnView, ∀ outcome, view.after command (wrap outcome) = view) :
    durableTurns (answer wrap method driver).2 =
      (durableTurns driver).after command (answer wrap method driver).1 := by
  change durableTurns (exec method driver).2 =
    (durableTurns driver).after command (wrap (exec method driver).1)
  rw [unmoved, reads]

theorem durableTurns_execute (command : PersistenceCommand) :
    durableTurns (execute sha256 driver command).2 =
      (durableTurns driver).after command (execute sha256 driver command).1 := by
  unfold execute
  split
  case isTrue => exact TurnView.after_errorResult.symm
  case isFalse =>
    cases command with
    | load => exact durableTurns_read exec_load_state fun _ _ => rfl
    | barrier => exact durableTurns_read exec_barrier_state fun _ _ => rfl
    | inspect => exact durableTurns_read exec_inspect_state fun _ _ => rfl
    | exportApplication => exact durableTurns_read exec_exportApplication_state fun _ _ => rfl
    | loadContentArtifact => exact durableTurns_read exec_loadContentArtifact_state fun _ _ => rfl
    | initializeImage =>
      exact durableTurns_answer keepsStore_initializeImage (fun _ _ => rfl)
        fun _ _ done => (exec_initializeImage_acknowledged done).2
    | commit =>
      exact durableTurns_answer keepsStore_commit (fun _ _ => rfl)
        fun _ _ done => (exec_commit_acknowledged done).2
    | activate =>
      exact durableTurns_answer keepsStore_activate (fun _ _ => rfl)
        fun _ _ done => (exec_activate_acknowledged done).2
    | resetApplication =>
      exact durableTurns_answer keepsStore_resetApplication (fun _ _ => rfl)
        fun _ _ done => (exec_resetApplication_acknowledged done).2
    | putContentArtifact =>
      apply durableTurns_answer keepsStore_putContentArtifact fun _ _ => rfl
      intro ack next done
      simp only [putContentArtifact, exec_get_bind, exec_attempt_bind_eq_ok_iff] at done
      rcases done with ⟨_, _, _, _, _, _, _, _, rfl, rfl⟩
      rfl
    | compact =>
      apply durableTurns_answer keepsStore_compact fun _ _ => rfl
      intro ack next done
      simp only [compact, exec_get_bind, exec_attempt_bind_eq_ok_iff] at done
      rcases done with ⟨_, _, _, _, rfl, rfl⟩
      rfl
    | shutdown => rfl

theorem exists_exec_of_acknowledged {closed : Bool} {refusal : StoreError} {result : α}
    (injective : Injective wrap) (acknowledged : (if closed then (wrap (.error refusal), driver)
      else answer wrap method driver).1 = wrap (.ok result)) :
    ∃ next, exec method driver = (.ok result, next) := by
  split at acknowledged
  case isTrue => cases injective acknowledged
  case isFalse => exact ⟨_, Prod.ext (injective acknowledged) rfl⟩

theorem lawfulDriver : LawfulDriver (execute sha256) durableTurns where
  moves _ command := durableTurns_execute command
  loaded driver request image acknowledged := by
    rcases exists_exec_of_acknowledged (fun _ _ => loaded.inj) acknowledged with
      ⟨next, done⟩
    simp only [load, exec_get_bind, exec_attempt_bind_eq_ok_iff, exec_pure, Prod.mk.injEq,
      Except.ok.injEq] at done
    rcases done with ⟨_, _, _, _, found, _⟩
    simp [durableTurns, found]
  initialized driver image ack acknowledged := by
    rcases exists_exec_of_acknowledged (fun _ _ => initialized.inj) acknowledged
      with ⟨next, done⟩
    exact (exec_initializeImage_acknowledged done).1
  committed driver batch ack acknowledged := by
    rcases exists_exec_of_acknowledged (fun _ _ => committed.inj) acknowledged
      with ⟨next, done⟩
    exact (exec_commit_acknowledged done).1
  activated driver batch ack acknowledged := by
    rcases exists_exec_of_acknowledged (fun _ _ => activated.inj) acknowledged
      with ⟨next, done⟩
    exact (exec_activate_acknowledged done).1
  reset driver batch ack acknowledged := by
    rcases exists_exec_of_acknowledged (fun _ _ => applicationReset.inj)
      acknowledged with ⟨next, done⟩
    exact (exec_resetApplication_acknowledged done).1

end InMemory

end BoonCircuit.Persistence.Coordinator
