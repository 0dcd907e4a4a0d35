import BoonCircuit.Persistence.ChecksumBinding
import BoonCircuit.Persistence.Coordinator.WorkerDiscipline

/-!
# What a reservation is worth

A reserved turn is accepted exactly when the channel has room.  The accepted turns
leave room for it, but artifact requests are admitted without a reservation and may
take this room.
-/

namespace BoonCircuit.Persistence.Coordinator

open Data Lib Checks Action InMemoryDriver SharedState

section Reservations

variable {sha256 : List UInt8 → Digest} {D : Type}
variable {execute : D → PersistenceCommand → PersistenceResult × D}
variable {config : PersistenceWorkerConfig} {driver : D} {initialImage : RestoreImage}
variable {system next : System D}

theorem start_eq_ok (started : System.start execute config driver initialImage = .ok system) :
    ∃ driver image, system = .started config driver image := by
  unfold System.start at started
  split at started
  case h_1 => cases started
  case h_2 =>
    split at started
    case h_1 image driver _ =>
      cases started
      exact ⟨driver, image, rfl⟩
    case h_2 => cases started

theorem Disciplined.start (started : System.start execute config driver initialImage = .ok system) :
    Disciplined system := by
  rcases start_eq_ok started with ⟨_, _, rfl⟩
  exact disciplined_started

/-- In every interleaving, a live reservation whose turn has the expected number is accepted
exactly when the channel has room.  Otherwise the caller gets backpressure, although the
accepted turns leave room for it. -/
theorem reserved_enqueue_ok_iff_room
    (started : System.start execute config driver initialImage = .ok system)
    (steps : Relation.ReflTransGen (System.Steps sha256 config execute) system next)
    (turn : AuthorityTurn) (reserved : 0 < next.held) (alive : next.shared.workerAlive = true)
    (open_ : next.shared.admission.closed = false)
    (expected : turn.turnSequence = next.shared.admission.nextTurnSequence) :
    next.shared.admission.pending.length < next.shared.capacity ∧
      ((next.shared.enqueue next.channel turn).1 = .ok () ↔
        next.channel.queue.length < next.shared.capacity) ∧
      (¬ next.channel.queue.length < next.shared.capacity →
        (next.shared.enqueue next.channel turn).1 = .error (.backpressure turn
          next.shared.capacity next.shared.admission.pending.length (next.held - 1))) := by
  have ok := (Disciplined.start started).run steps
  have connected : next.channel.connected = true := by
    by_contra gone
    have returned := ok.receiver.returned (by simpa using gone)
    rw [ok.receiver.gone returned] at alive
    cases alive
  have serving : next.shared.releaseReservation.isClosed = false := by
    simp [isClosed, releaseReservation, alive, open_]
  have contiguous :
      ¬ turn.turnSequence ≠ next.shared.releaseReservation.admission.nextTurnSequence :=
    not_not.mpr expected
  have bounded := ok.slots.bounded
  refine ⟨by omega, ?_⟩
  rw [← ok.slots.capacity, ← ok.slots.held]
  unfold enqueue
  rw [if_neg (by simp [serving]), if_neg contiguous]
  by_cases room : next.channel.queue.length < next.channel.capacity
  · rcases (Channel.exists_trySend_iff connected).mpr room with ⟨_, delivered⟩
    rw [delivered]
    exact ⟨iff_of_true rfl room, absurd room⟩
  · rw [Channel.trySend_eq_full connected room, ok.slots.capacity]
    refine ⟨iff_of_false ?_ (ok.slots.capacity ▸ room), fun _ => rfl⟩
    rintro ⟨⟩

end Reservations

/-- A start over an empty store with an acceptable image. -/
theorem start_eq_started {sha256 : List UInt8 → Digest} {config : PersistenceWorkerConfig}
    {image : RestoreImage} (valid : validateWorkerConfig config = .ok ())
    (accepted : validateInitialImage sha256 image = .ok ()) :
    System.start (InMemoryDriver.execute sha256) config .empty image =
      .ok (.started config (empty.withImage image.application image) image) := by
  have loaded : InMemoryDriver.execute sha256 .empty (.load ⟨image.application, none⟩) =
      (.loaded (.ok none), .empty) :=
    rfl
  have stored : InMemoryDriver.execute sha256 .empty (.initializeImage image) =
      (.initialized (.ok ⟨image.epoch, image.throughTurnSequence⟩),
        empty.withImage image.application image) := by
    change answer .initialized (initializeImage sha256 image) _ = _
    rw [initializeImage, accepted]
    rfl
  rw [System.start, valid]
  simp only [startDriver, loadDriver, loaded, initializeDriver, stored]

/-- A coordinator whose channel holds a single message. -/
def narrowConfig : PersistenceWorkerConfig :=
  ⟨1, 1, 0⟩

/-- The image of an application that has not done anything yet. -/
def blankImage : RestoreImage :=
  .empty sampleApplication 1 (Digest.ofByte 7)

/-- The narrow coordinator after its start. -/
def narrowSystem : System InMemoryDriver :=
  .started narrowConfig (empty.withImage sampleApplication blankImage) blankImage

/-- A turn without changes. -/
def idleTurn (turnSequence : UInt64) : AuthorityTurn :=
  ⟨turnSequence, [], [], []⟩

/-- An artifact without bytes. -/
def blankArtifact : ContentArtifact :=
  ⟨Digest.ofByte 0, "text/plain", []⟩

theorem start_narrow :
    System.start (InMemoryDriver.execute zeroHash) narrowConfig .empty blankImage =
      .ok narrowSystem :=
  start_eq_started rfl (by decide)

theorem reserved_turn_of_narrow_system :
    ∃ next, Relation.ReflTransGen
        (System.Steps zeroHash narrowConfig (InMemoryDriver.execute zeroHash)) narrowSystem next ∧
      0 < next.held ∧ (next.shared.enqueue next.channel (idleTurn 1)).1 = .ok () := by
  have steps := System.steps_of_run zeroHash narrowConfig (InMemoryDriver.execute zeroHash)
    [.tryReserveTurn] (show narrowSystem.run _ _ _ _ = some _ from rfl)
  have accepted := (reserved_enqueue_ok_iff_room start_narrow steps (idleTurn 1) (by decide) rfl
    rfl rfl).2.1
  exact ⟨_, steps, by decide, accepted.mpr (by decide)⟩

theorem artifact_takes_reserved_slot :
    System.start (InMemoryDriver.execute zeroHash) narrowConfig .empty blankImage =
      .ok narrowSystem ∧
    ∃ next, Relation.ReflTransGen
        (System.Steps zeroHash narrowConfig (InMemoryDriver.execute zeroHash)) narrowSystem next ∧
      0 < next.held ∧ next.shared.workerAlive = true ∧
      next.shared.admission.closed = false ∧
      (idleTurn 1).turnSequence = next.shared.admission.nextTurnSequence ∧
      (next.shared.enqueue next.channel (idleTurn 1)).1 =
        .error (.backpressure (idleTurn 1) 1 0 0) :=
  ⟨start_narrow, _, System.steps_of_run zeroHash narrowConfig _
      [.tryReserveTurn, .tryPutContentArtifact blankArtifact] rfl,
    by decide, rfl, rfl, rfl, rfl⟩

end BoonCircuit.Persistence.Coordinator
