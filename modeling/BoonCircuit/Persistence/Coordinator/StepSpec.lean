import BoonCircuit.Persistence.Coordinator.Drivers

/-!
# What the steps of the coordinator do

One lemma per operation of callers and worker lists the ways it can end.  The
invariants of the coordinator are proved from these lists.
-/

namespace BoonCircuit.Persistence.Coordinator

open Data Lib Checks Channel

/-- Two shared states that differ in tickets, completions, errors and epochs only. -/
structure SameWork (shared next : SharedState) : Prop where
  capacity : next.capacity = shared.capacity
  admission : next.admission = shared.admission
  durableTurn : next.durableTurn = shared.durableTurn
  workerAlive : next.workerAlive = shared.workerAlive

namespace SameWork

variable {shared : SharedState}

theorem refl : SameWork shared shared :=
  ⟨rfl, rfl, rfl, rfl⟩

theorem recordStoreError {error : StoreError} : SameWork shared (shared.recordStoreError error) :=
  ⟨rfl, rfl, rfl, rfl⟩

theorem recordResultError {α : Type} {result : Outcome α} :
    SameWork shared (shared.recordResultError result) := by
  cases result with
  | ok => exact refl
  | error => exact recordStoreError

end SameWork

/-- The ways an enqueue can end. -/
inductive Enqueued (shared : SharedState) (channel : Channel WorkerMessage)
    (turn : AuthorityTurn) :
    Except TurnEnqueueError Unit × SharedState × Channel WorkerMessage → Prop
  | accepted (sent : Channel WorkerMessage) (serving : shared.isClosed = false)
      (expected : turn.turnSequence = shared.admission.nextTurnSequence)
      (delivered : Sent channel (.turn turn) sent) :
      Enqueued shared channel turn (.ok (), shared.releaseReservation.accept turn, sent)
  | refused (error : TurnEnqueueError) :
      Enqueued shared channel turn (.error error, shared.releaseReservation, channel)
  | exited (gone : channel.connected = false) :
      Enqueued shared channel turn
        (.error (.closed turn), shared.releaseReservation.markWorkerExited, channel)

theorem trySend_disconnected {μ : Type} {channel : Channel μ} {message : μ}
    (failed : channel.trySend message = .error .disconnected) : channel.connected = false := by
  by_contra alive
  exact trySend_ne_disconnected (by simpa using alive) failed

theorem enqueued (shared : SharedState) (channel : Channel WorkerMessage) (turn : AuthorityTurn) :
    Enqueued shared channel turn (shared.enqueue channel turn) := by
  unfold SharedState.enqueue
  dsimp only
  split
  case isTrue => exact .refused _
  case isFalse serving =>
    split
    case isTrue => exact .refused _
    case isFalse expected =>
      split
      case h_1 sent delivered =>
        exact .accepted sent (Bool.not_eq_true _ ▸ serving) (not_not.mp expected)
          (sent_of_trySend delivered)
      case h_2 => exact .refused _
      case h_3 gone => exact .exited (trySend_disconnected gone)

/-- The ways an asynchronous artifact request can end. -/
inductive ArtifactQueued (shared : SharedState) (channel : Channel WorkerMessage) :
    SharedState × Channel WorkerMessage → Prop
  | sent (next : SharedState) (work : AsyncArtifact) (sent : Channel WorkerMessage)
      (same : SameWork shared next) (delivered : Sent channel (.artifact work) sent) :
      ArtifactQueued shared channel (next, sent)
  | refused (next : SharedState) (same : SameWork shared next) :
      ArtifactQueued shared channel (next, channel)
  | exited (next : SharedState) (same : SameWork shared next)
      (gone : channel.connected = false) :
      ArtifactQueued shared channel (next.markWorkerExited, channel)

theorem artifactQueued (shared : SharedState) (channel : Channel WorkerMessage) :
    (∀ artifact, ArtifactQueued shared channel (shared.tryPutContentArtifact channel artifact).2) ∧
      ∀ id, ArtifactQueued shared channel (shared.tryLoadContentArtifact channel id).2 := by
  constructor
  all_goals
    intro _
    dsimp only [SharedState.tryPutContentArtifact, SharedState.tryLoadContentArtifact]
    split
    case isTrue => exact .refused _ .refl
    case isFalse =>
      split
      case h_1 sent delivered => exact .sent _ _ _ ⟨rfl, rfl, rfl, rfl⟩ (sent_of_trySend delivered)
      case h_2 => exact .refused _ ⟨rfl, rfl, rfl, rfl⟩
      case h_3 gone => exact .exited _ ⟨rfl, rfl, rfl, rfl⟩ (trySend_disconnected gone)

section Worker

variable {sha256 : List UInt8 → Digest} {D : Type}
variable {execute : D → PersistenceCommand → PersistenceResult × D}

/-- A batch that contains exactly the given turns, in their order. -/
structure CheckpointOf (sha256 : List UInt8 → Digest) (batch : CheckpointBatch)
    (turns : List AuthorityTurn) : Prop where
  sealed : ∃ (durable : DurableCursor) (epoch first last : UInt64),
    batch = durable.checkpoint sha256 epoch first last turns
  first : turns.head?.map (·.turnSequence) = some batch.firstTurnSequence
  last : turns.getLast?.map (·.turnSequence) = some batch.lastTurnSequence

/-- The ways a flush can end before its acknowledgement is marked. -/
inductive Flushed (sha256 : List UInt8 → Digest) (execute : D → PersistenceCommand →
      PersistenceResult × D) (worker : WorkerState D) (shared : SharedState) :
    FlushResult × D × SharedState → Prop
  | empty (nothing : worker.pending = []) :
      Flushed sha256 execute worker shared (.done (.ok ()), worker.driver, shared)
  | unsent (error : StoreError) (next : SharedState) (same : SameWork shared next) :
      Flushed sha256 execute worker shared (.done (.error error), worker.driver, next)
  | refused (error : StoreError) (next : SharedState) (same : SameWork shared next)
      (batch : CheckpointBatch)
      (unacknowledged : ∀ ack, (execute worker.driver (.commit batch)).1 ≠ .committed (.ok ack) ∨
        ack ≠ ⟨batch.nextEpoch, batch.lastTurnSequence⟩) :
      Flushed sha256 execute worker shared
        (.done (.error error), (execute worker.driver (.commit batch)).2, next)
  | acknowledged (batch : CheckpointBatch)
      (holds : CheckpointOf sha256 batch worker.pending)
      (application : batch.application = worker.durable.application)
      (answer : (execute worker.driver (.commit batch)).1 =
        .committed (.ok ⟨batch.nextEpoch, batch.lastTurnSequence⟩)) :
      Flushed sha256 execute worker shared
        (.acknowledged batch ⟨batch.nextEpoch, batch.lastTurnSequence⟩,
          (execute worker.driver (.commit batch)).2, shared)

variable (sha256 execute) in
theorem flushed (worker : WorkerState D) (shared : SharedState) :
    Flushed sha256 execute worker shared (flushPending sha256 execute worker shared) := by
  unfold flushPending
  split
  case h_1 first last first_eq last_eq =>
    split
    case isTrue => exact .unsent _ _ .recordStoreError
    case isFalse =>
      split
      case h_1 => exact .unsent _ _ .refl
      case h_2 epoch _ =>
        dsimp only
        split
        case h_1 ack driver answered =>
          obtain rfl : (execute worker.driver _).2 = driver := congrArg Prod.snd answered
          have result_eq := congrArg Prod.fst answered
          split
          case isTrue inconsistent =>
            refine .refused _ _ .recordStoreError _ fun other => ?_
            rw [result_eq, or_iff_not_imp_left]
            rintro same rfl
            simp only [ne_eq, not_not, PersistenceResult.committed.injEq, Except.ok.injEq] at same
            subst same
            exact absurd rfl (inconsistent.resolve_left (not_not.mpr rfl))
          case isFalse consistent =>
            obtain ⟨epoch_eq, last_turn_eq⟩ := not_or.mp consistent
            obtain rfl : ack = ⟨epoch, last.turnSequence⟩ := by
              rw [← not_not.mp epoch_eq, ← not_not.mp last_turn_eq]
            exact .acknowledged _ ⟨⟨_, _, _, _, rfl⟩, by rw [first_eq]; rfl, by rw [last_eq]; rfl⟩
              rfl result_eq
        case h_2 error driver answered =>
          obtain rfl : (execute worker.driver _).2 = driver := congrArg Prod.snd answered
          refine .refused _ _ .recordStoreError _ fun ack => .inl ?_
          rw [congrArg Prod.fst answered]
          simp
        case h_3 answer driver unexpected _ answered =>
          obtain rfl : (execute worker.driver _).2 = driver := congrArg Prod.snd answered
          refine .refused _ _ .recordStoreError _ fun ack => .inl ?_
          rw [congrArg Prod.fst answered]
          exact unexpected ack
  case h_2 ends =>
    apply Flushed.empty
    by_contra some_turn
    exact ends _ _ (List.head?_eq_some_head some_turn) (List.getLast?_eq_some_getLast some_turn)

theorem handleAsyncArtifact_cases (worker : WorkerState D) (shared : SharedState)
    (work : AsyncArtifact) :
    ∃ command, (∀ (view : TurnView) answer, view.after command answer = view) ∧
      (handleAsyncArtifact execute worker shared work).1 =
        { worker with driver := (execute worker.driver command).2 } ∧
      SameWork shared (handleAsyncArtifact execute worker shared work).2 := by
  have recorded {α : Type} (result : Outcome α) :
      SameWork shared (shared.recordResultError result) := .recordResultError
  cases work with
  | put ticket artifact | load ticket id => exact ⟨_, fun _ _ => rfl, rfl, { recorded _ with }⟩

/-- A request that does not touch the images of other applications. -/
def ControlRequest.Own (durable : DurableCursor) : ControlRequest → Prop
  | .activate batch => batch.application = durable.application
  | .resetApplication batch => batch.application = durable.application
  | _ => True

/-- The ways a control request of the worker's own application can be answered. -/
inductive Handled (sha256 : List UInt8 → Digest) (through : D → TurnView)
    (worker : WorkerState D) (shared : SharedState) (request : ControlRequest) :
    ControlReply × WorkerState D × SharedState → Prop
  | kept (reply : ControlReply) (driver : D) (next : SharedState)
      (same : SameWork shared next) (unmoved : through driver = through worker.driver)
      (plain : ∀ turn ack, request = .immediateTurn turn → reply ≠ .immediateTurn (.ok ack)) :
      Handled sha256 through worker shared request (reply, { worker with driver := driver }, next)
  | committed (turn : AuthorityTurn) (ack : CommitAck) (driver : D)
      (request_eq : request = .immediateTurn turn)
      (expected : checkedSucc worker.durable.throughTurnSequence = some turn.turnSequence)
      (through_eq : ack.throughTurnSequence = turn.turnSequence)
      (moved : through driver = Function.update (through worker.driver)
        worker.durable.application (some turn.turnSequence)) :
      Handled sha256 through worker shared request
        (.immediateTurn (.ok ack),
          { worker with
            driver := driver
            durable := { worker.durable with
              epoch := ack.epoch
              throughTurnSequence := ack.throughTurnSequence } },
          shared.markActivation ack.epoch ack.throughTurnSequence)
  | adopted (reply : ControlReply) (driver : D) (epoch : UInt64) (schemaHash : Digest)
      (before turn : UInt64)
      (found : through worker.driver worker.durable.application = some before)
      (onwards : before ≤ turn)
      (moved : through driver = Function.update (through worker.driver)
        worker.durable.application (some turn))
      (plain : ∀ turn ack, request = .immediateTurn turn → reply ≠ .immediateTurn (.ok ack)) :
      Handled sha256 through worker shared request
        (reply, adoptSchema { worker with driver := driver } shared epoch schemaHash turn)

variable {through : D → TurnView} {worker : WorkerState D} {shared : SharedState}
  (law : LawfulDriver execute through) {request : ControlRequest} {batch : CheckpointBatch}
  {driver : D}
include law

theorem handled_forward {α : Type} {command : PersistenceCommand}
    {outcome : PersistenceResult → Outcome α} {reply : Outcome α → ControlReply}
    (unmoved : ∀ (view : TurnView) answer, view.after command answer = view)
    (plain : ∀ turn ack result, request = .immediateTurn turn →
      reply result ≠ .immediateTurn (.ok ack)) :
    Handled sha256 through worker shared request
      (forward execute worker shared command outcome reply) := by
  refine .kept _ _ _ .recordResultError ?_ fun turn ack => plain turn ack _
  rw [law.moves, unmoved]

theorem unmoved_of_not_committed {answer : PersistenceResult} {next : D}
    (answered : execute driver (.commit batch) = (answer, next))
    (refused : ∀ ack, answer ≠ .committed (.ok ack)) : through next = through driver := by
  have moves := law.moves driver (.commit batch)
  rw [answered] at moves
  rw [moves]
  cases answer with
  | committed outcome =>
    cases outcome with
    | ok ack => exact absurd rfl (refused ack)
    | error => rfl
  | _ => rfl

theorem moved_of_committed {ack : CommitAck} {next : D}
    (answered : execute driver (.commit batch) = (.committed (.ok ack), next)) :
    through next =
      Function.update (through driver) batch.application (some batch.lastTurnSequence) := by
  obtain rfl := law.committed _ _ _ (congrArg Prod.fst answered)
  have moves := law.moves driver (.commit batch)
  rw [answered] at moves
  exact moves

theorem handled_immediateTurn (turn : AuthorityTurn) :
    Handled sha256 through worker shared (.immediateTurn turn)
      (handleControl sha256 execute worker shared (.immediateTurn turn)) := by
  change Handled sha256 through worker shared _
    ((fun result => (ControlReply.immediateTurn result.1, result.2.1,
      result.2.2.recordResultError result.1))
      (commitImmediateTurn sha256 execute worker shared turn))
  unfold commitImmediateTurn
  split
  case h_1 => exact .kept _ _ _ .recordResultError rfl fun _ _ _ => by simp
  case h_2 expected expected_eq =>
    split
    case isTrue => exact .kept _ _ _ .recordResultError rfl fun _ _ _ => by simp
    case isFalse contiguous =>
      obtain rfl := not_not.mp contiguous
      split
      case h_1 => exact .kept _ _ _ .recordResultError rfl fun _ _ _ => by simp
      case h_2 epoch _ =>
        split
        case h_1 ack driver answered =>
          obtain rfl := law.committed _ _ _ (congrArg Prod.fst answered)
          rw [if_neg (by simp [DurableCursor.immediateCheckpoint, DurableCursor.checkpoint,
            CheckpointBatch.seal])]
          exact .committed turn _ _ rfl expected_eq rfl (moved_of_committed law answered)
        case h_2 answered =>
          exact .kept _ _ _ .recordResultError (unmoved_of_not_committed law answered nofun)
            fun _ _ _ => by simp
        case h_3 unexpected _ answered =>
          exact .kept _ _ _ .recordResultError (unmoved_of_not_committed law answered unexpected)
            fun _ _ _ => by simp

theorem handled_activate {batch : ActivationBatch}
    (own : batch.application = worker.durable.application) :
    Handled sha256 through worker shared (.activate batch)
      (handleControl sha256 execute worker shared (.activate batch)) := by
  have moves := law.moves worker.driver (.activate batch)
  have forwards := law.activated worker.driver batch
  rcases answered : execute worker.driver (.activate batch) with ⟨answer, driver⟩
  rw [handleControl, answered]
  rw [answered] at moves forwards
  cases answer with
  | activated outcome =>
    cases outcome with
    | ok ack =>
      rcases forwards ack rfl with ⟨before, found, onwards⟩
      change through driver = Function.update _ batch.application _ at moves
      rw [own] at found moves
      exact .adopted _ _ _ _ before _ found onwards moves fun _ _ same => nomatch same
    | error => exact .kept _ _ _ .recordStoreError moves fun _ _ same => nomatch same
  | _ => exact .kept _ _ _ .recordStoreError moves fun _ _ same => nomatch same

theorem handled_resetApplication {batch : ResetApplicationBatch}
    (own : batch.application = worker.durable.application) :
    Handled sha256 through worker shared (.resetApplication batch)
      (handleControl sha256 execute worker shared (.resetApplication batch)) := by
  have moves := law.moves worker.driver (.resetApplication batch)
  have forwards := law.reset worker.driver batch
  rcases answered : execute worker.driver (.resetApplication batch) with ⟨answer, driver⟩
  rw [handleControl, answered]
  rw [answered] at moves forwards
  cases answer with
  | applicationReset outcome =>
    cases outcome with
    | ok ack =>
      rcases forwards ack rfl with ⟨before, found, onwards⟩
      change through driver = Function.update _ batch.application _ at moves
      rw [own] at found moves
      exact .adopted _ _ _ _ before _ found onwards moves fun _ _ same => nomatch same
    | error => exact .kept _ _ _ .recordStoreError moves fun _ _ same => nomatch same
  | _ => exact .kept _ _ _ .recordStoreError moves fun _ _ same => nomatch same

theorem handled (own : request.Own worker.durable) :
    Handled sha256 through worker shared request
      (handleControl sha256 execute worker shared request) := by
  cases request with
  | immediateTurn turn => exact handled_immediateTurn law turn
  | activate => exact handled_activate law own
  | resetApplication => exact handled_resetApplication law own
  | _ => exact handled_forward law (fun _ _ => rfl) (by simp)

end Worker

end BoonCircuit.Persistence.Coordinator
