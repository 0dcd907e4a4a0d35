import BoonCircuit.Persistence.Coordinator.Discipline

/-!
# The worker keeps the discipline

Steps of the worker never touch what callers count.  They take messages in order,
answer the one control request they are busy with and keep its place otherwise.
-/

namespace BoonCircuit.Persistence.Coordinator

open Data Lib List Coordinator.System Disciplined WorkerMessage

section Steps

variable {D : Type} {system next : System D} {request : ControlRequest} {reply : ControlReply}
  {message : WorkerMessage} {channel : Channel WorkerMessage} {config : PersistenceWorkerConfig}
  {shared : SharedState} {worker : WorkerState D} {driver : D}
  {execute : D → PersistenceCommand → PersistenceResult × D} {sha256 : List UInt8 → Digest}

/-- A step of the running worker leaves the callers alone. -/
structure WorkerStep (system next : System D) : Prop where
  capacity : next.shared.capacity = system.shared.capacity
  accepting : next.shared.admission.accepting = system.shared.admission.accepting
  closed : next.shared.admission.closed = system.shared.admission.closed
  reservations : next.shared.admission.reservations = system.shared.admission.reservations
  pending : next.shared.admission.pending.length ≤ system.shared.admission.pending.length
  workerAlive : next.shared.workerAlive = system.shared.workerAlive
  room : next.channel.capacity = system.channel.capacity
  connected : next.channel.connected = system.channel.connected
  control : next.control = system.control
  held : next.held = system.held
  dropped : next.dropped = system.dropped
  before : system.worker.phase ≠ .returned
  unclosed : next.worker.phase ≠ .closing
  unreturned : next.worker.phase ≠ .returned

theorem WorkerStep.slots (step : WorkerStep system next) (ok : SlotsOk system) : SlotsOk next := by
  refine ⟨?_, ?_, ?_⟩
  · rw [step.room, step.capacity, ok.capacity]
  · rw [step.reservations, step.held, ok.held]
  · rw [step.capacity, step.held]
    exact (Nat.add_le_add_right step.pending _).trans ok.bounded

theorem WorkerStep.receiver (step : WorkerStep system next) (ok : ReceiverOk system) :
    ReceiverOk next where
  returned gone := absurd (ok.returned (step.connected ▸ gone)) step.before
  closing phase := absurd phase step.unclosed
  gone phase := absurd phase step.unreturned

/-- A step that answers nothing, takes at most turns and artifacts from what is incoming, and
keeps the undelivered turns or removes all of them. -/
theorem WorkerStep.controlOk (step : WorkerStep system next) (ok : ControlOk system)
    (taken : next.incoming.Sublist system.incoming) (requests_eq : next.requests = system.requests)
    (reply_eq : next.reply = system.reply)
    (undelivered : system.undelivered = [] → next.undelivered = [])
    (handling : ∀ request, next.worker.phase = .handling request → next.worker.pending = [])
    (stopped : next.worker.phase.Stopped → system.worker.phase.Stopped) : ControlOk next where
  paused busy := step.accepting.trans (ok.paused (step.control ▸ busy))
  settled settled := step.held.trans (ok.settled (step.control ▸ settled))
  tracked := by
    rw [step.control, requests_eq, reply_eq]
    exact ok.tracked
  behind := ok.behind.sublist taken
  handling := handling
  answered ack answered := undelivered (ok.answered ack (reply_eq ▸ answered))
  alone dropped := step.control.trans (ok.alone (step.dropped ▸ dropped))
  stopped phase := by
    rw [step.control, step.closed, step.dropped, reply_eq]
    exact ok.stopped (stopped phase)

theorem incoming_of_busy (busy : system.worker.phase.request? = some request) :
    system.incoming = .control request ::
      (system.worker.deferred.toList.map .control ++ system.channel.queue) := by
  rw [incoming, busy]
  rfl

theorem ControlOk.busy (ok : ControlOk system)
    (busy : system.worker.phase.request? = some request) :
    system.requests = [request] ∧ system.reply = none ∧
      system.channel.queue.filterMap (·.turn?) = [] := by
  have incoming_eq := incoming_of_busy busy
  have sent : request ∈ system.requests := by
    rw [requests, incoming_eq]
    exact mem_cons_self
  rcases ok.waiting sent with ⟨_, alone, unanswered⟩
  refine ⟨alone, unanswered, filterMap_eq_nil_iff.mpr fun message member => ?_⟩
  have behind := ok.behind
  rw [NoTurnBehind, incoming_eq, pairwise_cons] at behind
  rcases behind.1 message (mem_append_right _ member) with idle | no_turn
  · cases idle
  · exact no_turn

theorem WorkerStep.controlOk_of_answer (step : WorkerStep system next) (ok : ControlOk system)
    (busy : system.worker.phase.request? = some request) (reply_eq : next.reply = some reply)
    (idle : next.worker.phase.request? = none)
    (unhandled : ∀ request, next.worker.phase ≠ .handling request)
    (deferred : next.worker.deferred = system.worker.deferred)
    (channel : next.channel = system.channel)
    (undelivered : ∀ ack, reply = .barrier (.ok ack) → next.undelivered = [])
    (stopped : next.worker.phase.Stopped → reply = .shutdown (.ok ())) : ControlOk next := by
  have incoming_eq : system.incoming = .control request :: next.incoming := by
    rw [incoming_of_busy busy, incoming, idle, deferred, channel]
    rfl
  rcases ok.busy busy with ⟨alone, _, _⟩
  have waiting := (ok.waiting (alone ▸ mem_singleton_self request)).1
  have none_sent : next.requests = [] := by
    rw [requests, incoming_eq] at alone
    exact (cons.inj alone).2
  refine ⟨?_, ?_, ?_, ?_, ?_, ?_, ?_, ?_⟩
  · exact fun busy => step.accepting.trans (ok.paused (step.control ▸ busy))
  · exact fun settled => step.held.trans (ok.settled (step.control ▸ settled))
  · rw [step.control, waiting]
    exact .inr ⟨none_sent, by rw [reply_eq]; rfl⟩
  · exact noTurnBehind_of_requests none_sent
  · exact fun request phase => absurd phase (unhandled request)
  · intro ack answered
    exact undelivered ack (Option.some.inj (reply_eq.symm.trans answered))
  · exact fun dropped => step.control.trans (ok.alone (step.dropped ▸ dropped))
  · exact fun phase => .inr (reply_eq.trans (congrArg some (stopped phase)))

/-- What a control request leaves alone. -/
structure HandledFrame (worker : WorkerState D) (shared : SharedState)
    (result : ControlReply × WorkerState D × SharedState) : Prop where
  pending : result.2.1.pending = worker.pending
  deferred : result.2.1.deferred = worker.deferred
  capacity : result.2.2.capacity = shared.capacity
  accepting : result.2.2.admission.accepting = shared.admission.accepting
  closed : result.2.2.admission.closed = shared.admission.closed
  reservations : result.2.2.admission.reservations = shared.admission.reservations
  admitted : result.2.2.admission.pending = shared.admission.pending
  workerAlive : result.2.2.workerAlive = shared.workerAlive

theorem handledFrame_of_sameWork {after : SharedState} (same : SameWork shared after) :
    HandledFrame worker shared (reply, { worker with driver := driver }, after) :=
  ⟨rfl, rfl, same.capacity, congrArg _ same.admission, congrArg _ same.admission,
    congrArg _ same.admission, congrArg _ same.admission, same.workerAlive⟩

theorem handledFrame_immediateTurn (sha256 : List UInt8 → Digest)
    (execute : D → PersistenceCommand → PersistenceResult × D) (worker : WorkerState D)
    (shared : SharedState) (turn : AuthorityTurn) :
    HandledFrame worker shared
      (handleControl sha256 execute worker shared (.immediateTurn turn)) := by
  change HandledFrame worker shared
    ((fun result => (ControlReply.immediateTurn result.1, result.2.1,
      result.2.2.recordResultError result.1))
      (commitImmediateTurn sha256 execute worker shared turn))
  unfold commitImmediateTurn
  split
  case h_1 => exact handledFrame_of_sameWork .recordResultError
  case h_2 =>
    split
    case isTrue => exact handledFrame_of_sameWork .recordResultError
    case isFalse =>
      split
      case h_1 => exact handledFrame_of_sameWork .recordResultError
      case h_2 =>
        split
        case h_1 =>
          split
          case isTrue => exact handledFrame_of_sameWork .recordResultError
          case isFalse => exact ⟨rfl, rfl, rfl, rfl, rfl, rfl, rfl, rfl⟩
        case h_2 => exact handledFrame_of_sameWork .recordResultError
        case h_3 => exact handledFrame_of_sameWork .recordResultError

theorem handledFrame (sha256 : List UInt8 → Digest)
    (execute : D → PersistenceCommand → PersistenceResult × D) (worker : WorkerState D)
    (shared : SharedState) (request : ControlRequest) :
    HandledFrame worker shared (handleControl sha256 execute worker shared request) := by
  cases request with
  | immediateTurn turn => exact handledFrame_immediateTurn sha256 execute worker shared turn
  | activate batch | resetApplication batch =>
    rw [handleControl]
    split
    split
    · exact ⟨rfl, rfl, rfl, rfl, rfl, rfl, rfl, rfl⟩
    · exact handledFrame_of_sameWork .recordStoreError
  | _ => exact handledFrame_of_sameWork .recordResultError

theorem phaseAfterReply_cases (reply : ControlReply) :
    phaseAfterReply reply = .receiving ∨
      phaseAfterReply reply = .stopping ∧ reply = .shutdown (.ok ()) := by
  cases reply with
  | shutdown outcome =>
    cases outcome with
    | ok => exact .inr ⟨rfl, rfl⟩
    | error => exact .inl rfl
  | _ => exact .inl rfl

theorem length_markDurable_le (shared : SharedState) (epoch turn : UInt64) :
    (shared.markDurable epoch turn).2.admission.pending.length ≤
      shared.admission.pending.length := by
  unfold SharedState.markDurable
  split
  · exact le_rfl
  · dsimp only
    split
    · exact le_rfl
    · split <;> exact (dropWhile_sublist _).length_le

theorem markDurable_frame (shared : SharedState) (epoch turn : UInt64) :
    ∃ (durableEpoch durableTurn : UInt64) (pending : List UInt64),
      (shared.markDurable epoch turn).2 = { shared with
        durableEpoch := durableEpoch
        durableTurn := durableTurn
        admission := { shared.admission with pending := pending } } := by
  unfold SharedState.markDurable
  split
  · exact ⟨_, _, _, rfl⟩
  · dsimp only
    split
    · exact ⟨_, _, _, rfl⟩
    · split <;> exact ⟨_, _, _, rfl⟩

/-- The control request that waits for a flush. -/
def AfterFlush.request? : AfterFlush → Option ControlRequest
  | .control request => some request
  | _ => none

theorem request?_flushing (after : AfterFlush) :
    (WorkerPhase.flushing after).request? = after.request? := by
  cases after <;> rfl

theorem request?_acknowledged (after : AfterFlush) (batch : CheckpointBatch) (ack : CommitAck) :
    (WorkerPhase.acknowledged after batch ack).request? = after.request? := by
  cases after <;> rfl

variable (ok : Disciplined system)
include ok

theorem Disciplined.of_step (step : WorkerStep system next)
    (control : WorkerStep system next → ControlOk next) : Disciplined next :=
  ⟨step.slots ok.slots, step.receiver ok.receiver, control step⟩

theorem Disciplined.goto (phase : WorkerPhase)
    (before : system.worker.phase ≠ .returned) (unclosed : phase ≠ .closing)
    (unreturned : phase ≠ .returned) (request_eq : phase.request? = system.worker.phase.request?)
    (handling : ∀ request, phase = .handling request → system.worker.pending = [])
    (stopped : phase.Stopped → system.worker.phase.Stopped) : Disciplined (system.goto phase) := by
  have incoming_eq : (system.goto phase).incoming = system.incoming := by
    simp only [System.incoming, System.goto, request_eq]
  refine ok.of_step ⟨rfl, rfl, rfl, rfl, le_rfl, rfl, rfl, rfl, rfl, rfl, rfl, before, unclosed,
    unreturned⟩ fun step => step.controlOk ok.control ?_ ?_ rfl id handling stopped
  · rw [incoming_eq]
  · rw [System.requests, incoming_eq]
    rfl

theorem Disciplined.take (received : system.channel.Received message channel)
    (uncontrolled : message.control? = none) (phase : WorkerPhase)
    (before : system.worker.phase ≠ .returned) (unclosed : phase ≠ .closing)
    (unreturned : phase ≠ .returned) (request_eq : phase.request? = system.worker.phase.request?)
    (unhandled : ∀ request, phase ≠ .handling request)
    (stopped : phase.Stopped → system.worker.phase.Stopped) {pending : List AuthorityTurn}
    (taken : system.worker.pending ++ message.turn?.toList = pending) :
    Disciplined { system with
      channel := channel
      worker := { system.worker with pending := pending, phase := phase } } := by
  refine ok.of_step ⟨rfl, rfl, rfl, rfl, le_rfl, rfl, received.capacity, received.connected, rfl,
    rfl, rfl, before, unclosed, unreturned⟩ fun step => step.controlOk ok.control ?_ ?_ rfl ?_
    (fun request phase => absurd phase (unhandled request)) stopped
  · simp only [incoming, request_eq, received.queue]
    exact Sublist.append_left (sublist_cons_self _ _) _
  · simp only [requests, incoming, request_eq, received.queue,
      filterMap_append, filterMap_cons, uncontrolled]
  · intro none_left
    rw [← none_left]
    cases message <;> simp [undelivered, received.queue, turn?, ← taken]

theorem Disciplined.takeControl (received : system.channel.Received (.control request) channel)
    (idle : system.worker.phase.request? = none) {deferred : Option ControlRequest}
    {phase : WorkerPhase} (before : system.worker.phase ≠ .returned) (unclosed : phase ≠ .closing)
    (unreturned : phase ≠ .returned) (known : phase.request?.toList ++ deferred.toList = [request])
    (unhandled : ∀ request, phase ≠ .handling request)
    (stopped : phase.Stopped → system.worker.phase.Stopped) :
    Disciplined { system with
      channel := channel
      worker := { system.worker with deferred := deferred, phase := phase } } := by
  have alone : system.worker.deferred = none := by
    have sent : request ∈ system.requests := by
      simp [requests, incoming, received.queue, control?]
    have only := (ok.control.waiting sent).2.1
    cases deferred_eq : system.worker.deferred with
    | none => rfl
    | some =>
      simp [requests, incoming, received.queue, control?, idle, deferred_eq] at only
  have incoming_eq : incoming { system with
      channel := channel
      worker := { system.worker with deferred := deferred, phase := phase } } =
      system.incoming := by
    simp only [incoming, known, idle, alone, received.queue]
    rfl
  refine ok.of_step ⟨rfl, rfl, rfl, rfl, le_rfl, rfl, received.capacity, received.connected, rfl,
    rfl, rfl, before, unclosed, unreturned⟩ fun step => step.controlOk ok.control ?_ ?_ rfl ?_
    (fun request phase => absurd phase (unhandled request)) stopped
  · rw [incoming_eq]
  · rw [requests, incoming_eq]
    rfl
  · intro none_left
    rw [← none_left]
    simp [undelivered, received.queue, turn?]

theorem Disciplined.takeMessage (received : system.channel.Received message channel)
    (receiving : system.worker.phase = .receiving) (undeferred : system.worker.deferred = none) :
    Disciplined (system.takeMessage channel message) := by
  have running : system.worker.phase ≠ .returned := by simp [receiving]
  have idle : system.worker.phase.request? = none := by rw [receiving]; rfl
  cases message with
  | turn =>
    exact ok.take received rfl (.collecting []) running nofun nofun idle.symm nofun nofun rfl
  | artifact work =>
    exact ok.take received rfl (.storing [work]) running nofun nofun idle.symm nofun nofun
      (append_nil _)
  | control =>
    exact ok.takeControl received idle running nofun nofun (by rw [undeferred]; rfl) nofun nofun

theorem Disciplined.receive (stepped : system.receive = some next) : Disciplined next := by
  unfold System.receive at stepped
  split at stepped
  case h_1 request receiving deferred =>
    cases stepped
    refine ok.of_step ⟨rfl, rfl, rfl, rfl, le_rfl, rfl, rfl, rfl, rfl, rfl, rfl,
      by simp [receiving], by simp, by simp⟩
      fun step => step.controlOk ok.control ?_ ?_ rfl id ?_ ?_
    · simp only [incoming, receiving, deferred]
      exact Sublist.refl _
    · simp only [requests, incoming, receiving, deferred]
      rfl
    · rintro _ ⟨⟩
    · rintro ⟨⟩
  case h_2 message channel receiving deferred received =>
    cases stepped
    exact ok.takeMessage (Channel.received_of_receive received) receiving deferred
  case h_3 receiving deferred empty =>
    split at stepped
    case isTrue unsent =>
      cases stepped
      have free := ok.control.alone unsent.1
      have incoming_eq : (system.goto (.flushing .stop)).incoming = system.incoming := by
        simp only [incoming, receiving]
        rfl
      refine ok.of_step ⟨rfl, rfl, rfl, rfl, le_rfl, rfl, rfl, rfl, rfl, rfl, rfl,
        by simp [receiving], by rintro ⟨⟩, by rintro ⟨⟩⟩ fun _ => { ok.control with
          tracked := ?_
          behind := incoming_eq ▸ ok.control.behind
          handling := ?_
          stopped := fun _ => .inl ⟨free, .inr unsent.1⟩ }
      · rw [requests, incoming_eq]
        exact ok.control.tracked
      · rintro _ ⟨⟩
    case isFalse => cases stepped
  case h_4 => cases stepped

theorem Disciplined.collect (stepped : system.collect config = some next) : Disciplined next := by
  unfold System.collect at stepped
  split at stepped
  case h_1 works message channel collecting received =>
    have received := Channel.received_of_receive received
    have running : system.worker.phase ≠ .returned := by simp [collecting]
    have idle : system.worker.phase.request? = none := by rw [collecting]; rfl
    split at stepped
    case isTrue =>
      cases stepped
      cases message with
      | turn =>
        have taken := ok.take received rfl (.collecting works) running
          nofun nofun idle.symm nofun nofun rfl
        rwa [← collecting] at taken
      | artifact work =>
        exact ok.take received rfl (.collecting (works ++ [work])) running nofun nofun idle.symm
          nofun nofun (append_nil _)
      | control => exact ok.takeControl received idle running nofun nofun rfl nofun nofun
    case isFalse => cases stepped
  case h_2 => cases stepped

theorem Disciplined.finishCollecting
    (stepped : system.finishCollecting config = some next) : Disciplined next := by
  unfold System.finishCollecting at stepped
  split at stepped
  case h_1 works collecting =>
    split at stepped
    case isTrue =>
      cases stepped
      exact ok.goto _ (by simp [collecting]) nofun nofun (by rw [collecting]; rfl) nofun nofun
    case isFalse => cases stepped
  case h_2 => cases stepped

theorem Disciplined.afterFlush {outcome : Outcome Unit}
    {after : AfterFlush} (running : system.worker.phase ≠ .returned)
    (request_eq : system.worker.phase.request? = after.request?)
    (stopping : after = .stop → system.worker.phase.Stopped)
    (flushed : outcome = .ok () → system.worker.pending = []) :
    Disciplined (system.afterFlush execute outcome after) := by
  cases after with
  | artifacts => exact ok.goto _ running nofun nofun request_eq.symm nofun nofun
  | control request =>
    cases outcome with
    | ok _ => exact ok.goto _ running nofun nofun request_eq.symm (fun _ _ => flushed rfl) nofun
    | error =>
      exact ok.of_step ⟨rfl, rfl, rfl, rfl, le_rfl, rfl, rfl, rfl, rfl, rfl, rfl, running,
        nofun, nofun⟩ fun step => step.controlOk_of_answer ok.control request_eq rfl rfl nofun
        rfl rfl (by cases request <;> exact nofun) nofun
  | stop =>
    have moved := ok.goto .stopping running nofun nofun request_eq.symm nofun
      fun _ => stopping rfl
    have stopped : Disciplined { system.goto .stopping with
        worker := { (system.goto .stopping).worker with
          driver := (execute system.worker.driver .shutdown).2 } } :=
      moved.internal rfl rfl rfl rfl le_rfl rfl rfl rfl id
    exact stopped

theorem Disciplined.flush
    (stepped : system.flush sha256 execute = some next) : Disciplined next := by
  unfold System.flush at stepped
  split at stepped
  case h_1 after flushing =>
    have running : system.worker.phase ≠ .returned := by simp [flushing]
    have request_eq : system.worker.phase.request? = after.request? := by
      rw [flushing, request?_flushing]
    have stopping : after = .stop → system.worker.phase.Stopped := by
      rintro rfl
      rw [flushing]
      trivial
    have ended := flushed sha256 execute system.worker system.shared
    generalize flushPending sha256 execute system.worker system.shared = result at ended stepped
    cases ended with
    | empty nothing =>
      cases stepped
      exact ok.afterFlush running request_eq stopping fun _ => nothing
    | unsent error shared same | refused error shared same batch =>
      cases stepped
      refine afterFlush ?_ running request_eq stopping nofun
      exact ok.sameWork same rfl rfl rfl
    | acknowledged batch =>
      cases stepped
      have moved := ok.goto (.acknowledged after batch ⟨batch.nextEpoch, batch.lastTurnSequence⟩)
        running nofun nofun (by rw [request?_acknowledged, request_eq]) nofun ?_
      · exact moved.internal rfl rfl rfl rfl le_rfl rfl rfl rfl id
      · cases after with
        | stop => exact fun _ => stopping rfl
        | _ => exact nofun
  case h_2 => cases stepped

theorem Disciplined.markDurable
    (stepped : system.markDurable execute = some next) : Disciplined next := by
  unfold System.markDurable at stepped
  split at stepped
  case h_1 after batch ack acknowledged =>
    have running : system.worker.phase ≠ .returned := by simp [acknowledged]
    have request_eq : system.worker.phase.request? = after.request? := by
      rw [acknowledged, request?_acknowledged]
    have stopping : after = .stop → system.worker.phase.Stopped := by
      rintro rfl
      rw [acknowledged]
      trivial
    rcases markDurable_frame system.shared ack.epoch ack.throughTurnSequence with
      ⟨_, _, _, frame⟩
    have shrinks := length_markDurable_le system.shared ack.epoch ack.throughTurnSequence
    generalize system.shared.markDurable ack.epoch ack.throughTurnSequence = result
      at frame shrinks stepped
    rcases result with ⟨outcome, shared⟩
    subst frame
    cases outcome with
    | error =>
      cases stepped
      refine afterFlush ?_ running request_eq stopping nofun
      exact ok.internal rfl rfl rfl rfl shrinks rfl rfl rfl id
    | ok _ =>
      cases stepped
      refine afterFlush ?_ running request_eq stopping fun _ => rfl
      exact ok.internal rfl rfl rfl rfl shrinks rfl rfl rfl fun _ => rfl
  case h_2 => cases stepped

theorem Disciplined.storeArtifact
    (stepped : system.storeArtifact execute = some next) : Disciplined next := by
  unfold System.storeArtifact at stepped
  split at stepped
  case h_1 storing =>
    cases stepped
    exact ok.goto _ (by simp [storing]) nofun nofun (by rw [storing]; rfl) nofun nofun
  case h_2 work works storing =>
    have moved := ok.goto (.storing works) (by simp [storing]) nofun nofun (by rw [storing]; rfl)
      nofun nofun
    rcases @handleAsyncArtifact_cases _ execute system.worker system.shared work with
      ⟨_, _, worker_eq, same⟩
    generalize handleAsyncArtifact execute system.worker system.shared work = result
      at worker_eq same stepped
    rcases result with ⟨worker, shared⟩
    subst worker_eq
    cases stepped
    exact moved.sameWork same rfl rfl rfl
  case h_3 => cases stepped

theorem Disciplined.handle
    (stepped : system.handle sha256 execute = some next) : Disciplined next := by
  unfold System.handle at stepped
  split at stepped
  case h_1 request handling =>
    have busy : system.worker.phase.request? = some request := by rw [handling]; rfl
    have frame := handledFrame sha256 execute system.worker system.shared request
    generalize handleControl sha256 execute system.worker system.shared request = result
      at frame stepped
    rcases result with ⟨reply, worker, shared⟩
    cases stepped
    have phases := phaseAfterReply_cases reply
    have emptied : worker.pending = [] :=
      frame.pending.trans (ok.control.handling request handling)
    refine ok.of_step ⟨frame.capacity, frame.accepting, frame.closed, frame.reservations,
      le_of_eq (congrArg _ frame.admitted), frame.workerAlive, rfl, rfl, rfl, rfl, rfl,
      by simp [handling], ?_, ?_⟩ fun step => step.controlOk_of_answer ok.control busy rfl ?_ ?_
      frame.deferred rfl (fun _ _ => ?_) ?_
    · rcases phases with same | ⟨same, _⟩ <;> simp [same]
    · rcases phases with same | ⟨same, _⟩ <;> simp [same]
    · rcases phases with same | ⟨same, _⟩ <;> rw [same] <;> rfl
    · rcases phases with same | ⟨same, _⟩ <;> simp [same]
    · rw [undelivered, append_eq_nil_iff]
      exact ⟨emptied, (ok.control.busy busy).2.2⟩
    · rcases phases with same | ⟨_, shut⟩
      · rw [same]
        rintro ⟨⟩
      · exact fun _ => shut
  case h_2 => cases stepped

theorem Disciplined.leaveLoop (stepped : system.leaveLoop = some next) : Disciplined next := by
  unfold System.leaveLoop at stepped
  split at stepped
  case h_1 stopping =>
    cases stepped
    have incoming_eq : (system.goto .closing).incoming = system.incoming := by
      simp only [incoming, stopping]
      rfl
    refine ⟨{ ok.slots with }, ⟨?_, fun _ => rfl, fun _ => rfl⟩, { ok.control with
        tracked := ?_
        behind := incoming_eq ▸ ok.control.behind
        handling := ?_
        stopped := fun _ => ok.control.stopped (by rw [stopping]; trivial) }⟩
    · intro gone
      cases stopping.symm.trans (ok.receiver.returned gone)
    · rw [requests]
      exact incoming_eq ▸ ok.control.tracked
    · rintro _ ⟨⟩
  case h_2 => cases stepped

theorem Disciplined.closeAdmission
    (stepped : system.closeAdmission = some next) : Disciplined next := by
  unfold System.closeAdmission at stepped
  split at stepped
  case h_1 closing =>
    cases stepped
    have incoming_eq : (system.goto .returned).incoming = system.incoming := by
      simp only [incoming, closing]
      rfl
    have alive := ok.receiver.closing closing
    refine ⟨{ ok.slots with }, ⟨fun _ => rfl, fun _ => alive, fun _ => alive⟩, { ok.control with
        paused := fun _ => rfl
        tracked := ?_
        behind := incoming_eq ▸ ok.control.behind
        handling := ?_
        stopped := fun _ => (ok.control.stopped (by rw [closing]; trivial)).imp_left
          fun free => ⟨free.1, .inl rfl⟩ }⟩
    · rw [requests]
      exact incoming_eq ▸ ok.control.tracked
    · rintro _ ⟨⟩
  case h_2 => cases stepped

theorem Disciplined.step {event : Event}
    (stepped : system.step sha256 config execute event = some next) : Disciplined next := by
  cases event with
  | tryReserveTurn => exact ok.tryReserveTurn stepped
  | enqueue => exact ok.enqueue stepped
  | dropReservation => exact ok.dropReservation stepped
  | tryPutContentArtifact =>
    obtain ⟨_, _, queued, rfl⟩ := tryPutContentArtifact_cases stepped
    exact ok.artifactQueued queued
  | tryLoadContentArtifact =>
    obtain ⟨_, _, queued, rfl⟩ := tryLoadContentArtifact_cases stepped
    exact ok.artifactQueued queued
  | takeStoreCompletions | takeLoadCompletions =>
    cases stepped
    exact ok.sameWork ⟨rfl, rfl, rfl, rfl⟩ rfl rfl rfl
  | requestControl => exact ok.requestControl stepped
  | reservationsDrained => exact ok.reservationsDrained stepped
  | sendControl => exact ok.sendControl stepped
  | finishControl => exact ok.finishControl stepped
  | dropCoordinator => exact ok.dropCoordinator stepped
  | receive => exact ok.receive stepped
  | collect => exact ok.collect stepped
  | finishCollecting => exact ok.finishCollecting stepped
  | flush => exact ok.flush stepped
  | markDurable => exact ok.markDurable stepped
  | storeArtifact => exact ok.storeArtifact stepped
  | handle => exact ok.handle stepped
  | leaveLoop => exact ok.leaveLoop stepped
  | closeAdmission => exact ok.closeAdmission stepped

omit ok in
theorem disciplined_started {image : RestoreImage} : Disciplined (started config driver image) :=
  ⟨⟨rfl, rfl, Nat.zero_le _⟩, ⟨nofun, nofun, nofun⟩,
    { paused := fun busy => absurd rfl busy
      settled := False.elim
      tracked := ⟨rfl, rfl⟩
      behind := .nil
      handling := nofun
      answered := nofun
      alone := nofun
      stopped := nofun }⟩

theorem Disciplined.run
    (steps : Relation.ReflTransGen (System.Steps sha256 config execute) system next) :
    Disciplined next := by
  induction steps with
  | refl => exact ok
  | tail _ step ih =>
    rcases step with ⟨_, stepped⟩
    exact ih.step stepped

end Steps

end BoonCircuit.Persistence.Coordinator
