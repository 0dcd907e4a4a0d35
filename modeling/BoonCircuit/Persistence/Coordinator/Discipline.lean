import BoonCircuit.Persistence.Coordinator.StepSpec

/-!
# Slots and control requests

What holds in every run, whatever the turns are: reservations are counted, admission
is paused while a control request is under way, at most one request is under way, and
no turn stands behind it.
-/

namespace BoonCircuit.Persistence.Coordinator

open Data Lib SharedState List

/-- The control request that the worker is busy with. -/
def WorkerPhase.request? : WorkerPhase → Option ControlRequest
  | .flushing (.control request) => some request
  | .acknowledged (.control request) _ _ => some request
  | .handling request => some request
  | _ => none

/-- The worker has left its loop or is about to. -/
def WorkerPhase.Stopped : WorkerPhase → Prop
  | .flushing .stop => True
  | .acknowledged .stop _ _ => True
  | .stopping => True
  | .closing => True
  | .returned => True
  | _ => False

namespace System

variable {D : Type}

/-- The turns that are accepted and not yet durable. -/
def undelivered (system : System D) : List AuthorityTurn :=
  system.worker.pending ++ system.channel.queue.filterMap (·.turn?)

/-- What the worker still has to deal with, apart from its pending turns. -/
def incoming (system : System D) : List WorkerMessage :=
  (system.worker.phase.request?.toList ++ system.worker.deferred.toList).map .control ++
    system.channel.queue

/-- The control requests on their way. -/
def requests (system : System D) : List ControlRequest :=
  system.incoming.filterMap (·.control?)

end System

/-- No turn stands behind a control request. -/
def NoTurnBehind (messages : List WorkerMessage) : Prop :=
  messages.Pairwise fun earlier later => earlier.control? = none ∨ later.turn? = none

/-- Where the one control request is. -/
def ControlPhase.Tracks (requests : List ControlRequest) (reply : Option ControlReply) :
    ControlPhase → Prop
  | .waiting request => requests = [request] ∧ reply = none ∨ requests = [] ∧ reply.isSome = true
  | _ => requests = [] ∧ reply = none

/-- The control lock is held by a caller that has seen all reservations go. -/
def ControlPhase.Settled : ControlPhase → Prop
  | .sending _ => True
  | .waiting _ => True
  | _ => False

/-- Reservations are counted and fit together with the pending turns. -/
structure SlotsOk {D : Type} (system : System D) : Prop where
  capacity : system.channel.capacity = system.shared.capacity
  held : system.shared.admission.reservations = system.held
  bounded : system.shared.admission.pending.length + system.held ≤ system.shared.capacity

/-- The receiver lives as long as the worker is alive. -/
structure ReceiverOk {D : Type} (system : System D) : Prop where
  returned : system.channel.connected = false → system.worker.phase = .returned
  closing : system.worker.phase = .closing → system.shared.workerAlive = false
  gone : system.worker.phase = .returned → system.shared.workerAlive = false

/-- One control request at a time, with admission paused around it. -/
structure ControlOk {D : Type} (system : System D) : Prop where
  paused : system.control ≠ .free → system.shared.admission.accepting = false
  settled : system.control.Settled → system.held = 0
  tracked : system.control.Tracks system.requests system.reply
  behind : NoTurnBehind system.incoming
  handling : ∀ request, system.worker.phase = .handling request → system.worker.pending = []
  answered : ∀ ack, system.reply = some (.barrier (.ok ack)) → system.undelivered = []
  alone : system.dropped = true → system.control = .free
  stopped : system.worker.phase.Stopped →
    system.control = .free ∧ (system.shared.admission.closed = true ∨ system.dropped = true) ∨
      system.reply = some (.shutdown (.ok ()))

structure Disciplined {D : Type} (system : System D) : Prop where
  slots : SlotsOk system
  receiver : ReceiverOk system
  control : ControlOk system

section Steps

variable {D : Type} {system next : System D} {request : ControlRequest} {shared : SharedState}
  {channel : Channel WorkerMessage} {worker : WorkerState D}

theorem ControlOk.quiet (ok : ControlOk system) (unsettled : ¬ system.control.Settled) :
    system.requests = [] ∧ system.reply = none := by
  have tracked := ok.tracked
  cases control_eq : system.control with
  | free | draining request => rwa [control_eq] at tracked
  | sending request | waiting request => exact absurd (control_eq ▸ trivial) unsettled

/-- A request on its way is waited for, alone and not answered. -/
theorem ControlOk.waiting (ok : ControlOk system) (sent : request ∈ system.requests) :
    system.control = .waiting request ∧ system.requests = [request] ∧ system.reply = none := by
  have tracked := ok.tracked
  cases control_eq : system.control with
  | waiting waited =>
    rw [control_eq] at tracked
    rcases tracked with ⟨alone, unanswered⟩ | ⟨none_sent, _⟩
    · obtain rfl : request = waited := by simpa [alone] using sent
      exact ⟨rfl, alone, unanswered⟩
    · simp [none_sent] at sent
  | _ =>
    rw [control_eq] at tracked
    rw [tracked.1] at sent
    cases sent

theorem ControlOk.not_stopped (ok : ControlOk system) (busy : system.control ≠ .free)
    (unanswered : system.reply = none) : ¬ system.worker.phase.Stopped := by
  intro stopped
  rcases ok.stopped stopped with ⟨free, _⟩ | answered
  · exact busy free
  · rw [unanswered] at answered
    cases answered

theorem noTurnBehind_of_requests {messages : List WorkerMessage}
    (none_sent : messages.filterMap (·.control?) = []) : NoTurnBehind messages := by
  apply List.Pairwise.imp_of_mem _ (pairwise_of_forall fun _ _ => trivial)
  intro earlier later member _ _
  exact .inl (filterMap_eq_nil_iff.mp none_sent earlier member)

theorem tracks_of_quiet {control : ControlPhase} {requests : List ControlRequest}
    {reply : Option ControlReply} (unsettled : ¬ control.Settled)
    (quiet : requests = [] ∧ reply = none) : control.Tracks requests reply := by
  cases control with
  | waiting => exact absurd trivial unsettled
  | _ => exact quiet

theorem tryReserveTurn_cases (stepped : system.tryReserveTurn = some next) :
    next = system ∨
      system.shared.admission.accepting = true ∧
      system.shared.admission.pending.length + system.shared.admission.reservations <
        system.shared.capacity ∧
      next = { system with
        shared := { system.shared with
          admission := { system.shared.admission with
            reservations := system.shared.admission.reservations + 1 } }
        held := system.held + 1 } := by
  unfold System.tryReserveTurn at stepped
  split at stepped
  case isTrue => cases stepped
  case isFalse =>
    split at stepped
    case h_1 shared reserved =>
      cases stepped
      unfold tryReserveTurn at reserved
      split at reserved
      case isTrue => cases reserved
      case isFalse =>
        split at reserved
        case isTrue => cases reserved
        case isFalse accepting =>
          split at reserved
          case isTrue => cases reserved
          case isFalse room =>
            cases reserved
            exact .inr ⟨by simpa using accepting, Nat.lt_of_not_le room, rfl⟩
    case h_2 => exact .inl (Option.some.inj stepped).symm

theorem tryPutContentArtifact_cases {artifact : ContentArtifact}
    (stepped : system.tryPutContentArtifact artifact = some next) : ∃ shared channel,
      ArtifactQueued system.shared system.channel (shared, channel) ∧
      next = { system with shared := shared, channel := channel } := by
  unfold System.tryPutContentArtifact at stepped
  split at stepped
  case isTrue => cases stepped
  case isFalse =>
    cases stepped
    exact ⟨_, _, (artifactQueued _ _).1 artifact, rfl⟩

theorem tryLoadContentArtifact_cases {id : ContentArtifactId}
    (stepped : system.tryLoadContentArtifact id = some next) : ∃ shared channel,
      ArtifactQueued system.shared system.channel (shared, channel) ∧
      next = { system with shared := shared, channel := channel } := by
  unfold System.tryLoadContentArtifact at stepped
  split at stepped
  case isTrue => cases stepped
  case isFalse =>
    cases stepped
    exact ⟨_, _, (artifactQueued _ _).2 id, rfl⟩

theorem ReceiverOk.sent {message : WorkerMessage} (ok : ReceiverOk system)
    (delivered : Channel.Sent system.channel message channel) :
    ReceiverOk { system with channel := channel } := { ok with
  returned := fun gone => by cases delivered.still.symm.trans gone }

variable (ok : Disciplined system)
include ok

theorem Disciplined.workerExited :
    Disciplined { system with shared := system.shared.markWorkerExited } :=
  ⟨{ ok.slots with },
    ⟨ok.receiver.returned, fun _ => rfl, fun _ => rfl⟩,
    { ok.control with
      paused := fun _ => rfl
      stopped := fun stopped => (ok.control.stopped stopped).imp_left
        fun free => ⟨free.1, .inl rfl⟩ }⟩

theorem Disciplined.released (some_held : system.held ≠ 0) :
    Disciplined { system with
      shared := system.shared.releaseReservation
      held := system.held - 1 } := by
  have bounded := ok.slots.bounded
  exact ⟨⟨ok.slots.capacity, congrArg (· - 1) ok.slots.held, by
      simp only [releaseReservation]; omega⟩,
    { ok.receiver with },
    { ok.control with settled := fun settled => absurd (ok.control.settled settled) some_held }⟩

theorem Disciplined.tryReserveTurn
    (stepped : system.tryReserveTurn = some next) : Disciplined next := by
  rcases tryReserveTurn_cases stepped with rfl | ⟨accepting, _, rfl⟩
  · exact ok
  · have unpaused : system.control = .free := by
      by_contra busy
      rw [ok.control.paused busy] at accepting
      cases accepting
    have held := ok.slots.held
    refine ⟨⟨ok.slots.capacity, ?_, ?_⟩, { ok.receiver with }, { ok.control with settled := ?_ }⟩
    · simp [held]
    · dsimp only
      omega
    · rw [unpaused]
      exact False.elim

theorem Disciplined.enqueue {turn : AuthorityTurn}
    (stepped : system.enqueue turn = some next) : Disciplined next := by
  unfold System.enqueue at stepped
  split at stepped
  case isTrue => cases stepped
  case isFalse some_held =>
    have unsettled : ¬ system.control.Settled := fun settled =>
      some_held (ok.control.settled settled)
    have held := ok.slots.held
    have bounded := ok.slots.bounded
    have ended := enqueued system.shared system.channel turn
    generalize system.shared.enqueue system.channel turn = result at ended stepped
    cases ended with
    | accepted sent serving expected delivered =>
      cases stepped
      have quiet := ok.control.quiet unsettled
      have none_sent : System.requests { system with channel := sent } = [] := by
        have before := quiet.1
        simp only [System.requests, System.incoming, filterMap_append,
          append_eq_nil_iff, delivered.queue] at before ⊢
        exact ⟨before.1, before.2, rfl⟩
      refine ⟨⟨?_, ?_, ?_⟩, { ok.receiver.sent delivered with },
        { ok.control with settled := ?_, tracked := ?_, behind := ?_, answered := ?_ }⟩
      · exact delivered.capacity.trans ok.slots.capacity
      · exact congrArg (· - 1) held
      · simp only [accept, releaseReservation, length_append, length_singleton]
        omega
      · exact fun settled => absurd settled unsettled
      · exact tracks_of_quiet unsettled ⟨none_sent, quiet.2⟩
      · exact noTurnBehind_of_requests none_sent
      · intro ack answered
        cases quiet.2.symm.trans answered
    | refused =>
      cases stepped
      exact ok.released some_held
    | exited =>
      cases stepped
      exact (ok.released some_held).workerExited

theorem Disciplined.dropReservation
    (stepped : system.dropReservation = some next) : Disciplined next := by
  unfold System.dropReservation at stepped
  split at stepped
  case isTrue => cases stepped
  case isFalse some_held =>
    cases stepped
    exact ok.released some_held

theorem Disciplined.internal {history : History}
    (capacity : shared.capacity = system.shared.capacity)
    (accepting : shared.admission.accepting = system.shared.admission.accepting)
    (closed : shared.admission.closed = system.shared.admission.closed)
    (reservations : shared.admission.reservations = system.shared.admission.reservations)
    (pending : shared.admission.pending.length ≤ system.shared.admission.pending.length)
    (alive : shared.workerAlive = system.shared.workerAlive)
    (phase : worker.phase = system.worker.phase)
    (deferred : worker.deferred = system.worker.deferred)
    (fewer : system.worker.pending = [] → worker.pending = []) :
    Disciplined { system with shared := shared, worker := worker, history := history } := by
  have incoming_eq : System.incoming { system with
      shared := shared, worker := worker, history := history } = system.incoming := by
    simp only [System.incoming, phase, deferred]
  refine ⟨⟨ok.slots.capacity.trans capacity.symm, reservations.trans ok.slots.held, ?_⟩,
    ⟨?_, ?_, ?_⟩, ?_⟩
  · have bounded := ok.slots.bounded
    dsimp only
    omega
  · exact fun gone => phase.trans (ok.receiver.returned gone)
  · exact fun closing => alive.trans (ok.receiver.closing (phase.symm.trans closing))
  · exact fun returned => alive.trans (ok.receiver.gone (phase.symm.trans returned))
  · refine { ok.control with
      paused := fun busy => accepting.trans (ok.control.paused busy)
      tracked := ?_
      behind := incoming_eq ▸ ok.control.behind
      handling := fun request handling =>
        fewer (ok.control.handling request (phase.symm.trans handling))
      answered := fun ack answered => ?_
      stopped := fun stopped => ?_ }
    · rw [System.requests, incoming_eq]
      exact ok.control.tracked
    · have none_left := ok.control.answered ack answered
      rw [System.undelivered, append_eq_nil_iff] at none_left ⊢
      exact ⟨fewer none_left.1, none_left.2⟩
    · dsimp only at stopped ⊢
      rw [closed]
      exact ok.control.stopped (phase ▸ stopped)

theorem Disciplined.sameWork (same : SameWork system.shared shared)
    (phase : worker.phase = system.worker.phase)
    (deferred : worker.deferred = system.worker.deferred)
    (pending : worker.pending = system.worker.pending) :
    Disciplined { system with shared := shared, worker := worker } :=
  ok.internal same.capacity (congrArg _ same.admission) (congrArg _ same.admission)
    (congrArg _ same.admission)
    (le_of_eq (congrArg (fun admission => admission.pending.length) same.admission))
    same.workerAlive phase deferred pending.trans

theorem Disciplined.artifactQueued
    (queued : ArtifactQueued system.shared system.channel (shared, channel)) :
    Disciplined { system with shared := shared, channel := channel } := by
  cases queued with
  | sent _ work _ same delivered =>
    have incoming_eq : System.incoming { system with channel := channel } =
        system.incoming ++ [.artifact work] := by
      simp only [System.incoming, delivered.queue, append_assoc]
    have requests_eq : System.requests { system with channel := channel } = system.requests := by
      rw [System.requests, incoming_eq, filterMap_append]
      exact append_nil _
    have kept := ok.sameWork same rfl rfl rfl
    refine ⟨⟨delivered.capacity.trans kept.slots.capacity, kept.slots.held, kept.slots.bounded⟩,
      { kept.receiver.sent delivered with },
      { kept.control with tracked := ?_, behind := ?_, answered := ?_ }⟩
    · exact requests_eq.symm ▸ ok.control.tracked
    · refine incoming_eq.symm ▸ pairwise_append.mpr
        ⟨ok.control.behind, pairwise_singleton _ _, fun _ _ _ last => ?_⟩
      exact .inr (mem_singleton.mp last ▸ rfl)
    · intro ack answered
      rw [← ok.control.answered ack answered]
      simp [System.undelivered, delivered.queue, WorkerMessage.turn?]
  | refused _ same => exact ok.sameWork same rfl rfl rfl
  | exited _ same => exact (ok.sameWork same rfl rfl rfl).workerExited

theorem Disciplined.requestControl
    (stepped : system.requestControl request = some next) : Disciplined next := by
  unfold System.requestControl at stepped
  split at stepped
  case h_1 free undropped =>
    split at stepped
    case isTrue =>
      cases stepped
      exact ok
    case isFalse serving =>
      cases stepped
      have quiet := ok.control.quiet (by rw [free]; exact id)
      refine ⟨{ ok.slots with }, { ok.receiver with }, { ok.control with
          paused := fun _ => rfl
          settled := False.elim
          tracked := quiet
          alone := fun dropped => by cases undropped.symm.trans dropped
          stopped := fun stopped => ?_ }⟩
      -- a stopped worker has closed the admission or lost its coordinator
      rcases ok.control.stopped stopped with ⟨_, closed | dropped⟩ | answered
      · exact absurd (by simp [isClosed, closed]) serving
      · cases undropped.symm.trans dropped
      · cases quiet.2.symm.trans answered
  case h_2 => cases stepped

theorem Disciplined.reservationsDrained
    (stepped : system.reservationsDrained = some next) : Disciplined next := by
  unfold System.reservationsDrained at stepped
  split at stepped
  case h_1 request draining =>
    have busy : system.control ≠ .free := by simp [draining]
    have quiet := ok.control.quiet (by rw [draining]; exact id)
    split at stepped
    case isTrue drained =>
      cases stepped
      exact ⟨{ ok.slots with }, { ok.receiver with }, { ok.control with
          paused := fun _ => ok.control.paused busy
          settled := fun _ => ok.slots.held.symm.trans drained
          tracked := quiet
          alone := fun dropped => absurd (ok.control.alone dropped) busy
          stopped := fun stopped => absurd stopped (ok.control.not_stopped busy quiet.2) }⟩
    case isFalse => cases stepped
  case h_2 => cases stepped

theorem Disciplined.abandonControl
    (quiet : system.requests = [] ∧ system.reply = none) : Disciplined system.abandonControl :=
  ⟨{ ok.slots with },
    ⟨ok.receiver.returned, fun _ => rfl, fun _ => rfl⟩,
    { ok.control with
      paused := fun _ => rfl
      settled := False.elim
      tracked := quiet
      alone := fun _ => rfl
      stopped := fun _ => .inl ⟨rfl, .inl rfl⟩ }⟩

theorem Disciplined.sendControl (stepped : system.sendControl = some next) : Disciplined next := by
  unfold System.sendControl at stepped
  split at stepped
  case h_1 request sending =>
    have busy : system.control ≠ .free := by simp [sending]
    have quiet : system.requests = [] ∧ system.reply = none := by
      have tracked := ok.control.tracked
      rwa [sending] at tracked
    split at stepped
    case h_1 sent delivered =>
      have delivered := Channel.sent_of_trySend delivered
      cases stepped
      have incoming_eq : System.incoming { system with channel := sent } =
          system.incoming ++ [.control request] := by
        simp only [System.incoming, delivered.queue, append_assoc]
      have requests_eq : System.requests { system with channel := sent } = [request] := by
        rw [System.requests, incoming_eq, filterMap_append]
        exact congrArg (· ++ [request]) quiet.1
      refine ⟨⟨delivered.capacity.trans ok.slots.capacity, ok.slots.held, ok.slots.bounded⟩,
        { ok.receiver.sent delivered with },
        { ok.control with
          paused := fun _ => ok.control.paused busy
          settled := fun _ => ok.control.settled (by rw [sending]; exact trivial)
          tracked := .inl ⟨requests_eq, quiet.2⟩
          behind := ?_
          answered := fun _ answered => by cases quiet.2.symm.trans answered
          alone := fun dropped => absurd (ok.control.alone dropped) busy
          stopped := fun stopped => absurd stopped (ok.control.not_stopped busy quiet.2) }⟩
      refine incoming_eq.symm ▸ pairwise_append.mpr
        ⟨ok.control.behind, pairwise_singleton _ _, fun _ _ _ last => ?_⟩
      exact .inr (mem_singleton.mp last ▸ rfl)
    case h_2 => cases stepped
    case h_3 =>
      cases stepped
      exact ok.abandonControl quiet
  case h_2 => cases stepped

omit ok in
theorem admissionAfterReply_cases (shared : SharedState) (reply : ControlReply) :
    System.admissionAfterReply shared reply = shared.closeAdmission ∨
      reply ≠ .shutdown (.ok ()) ∧ ∃ accepting, System.admissionAfterReply shared reply =
        { shared with admission := { shared.admission with accepting := accepting } } := by
  have reopened : ∃ accepting,
      (if !shared.admission.closed && shared.workerAlive then
        { shared with admission := { shared.admission with accepting := true } } else shared) =
      { shared with admission := { shared.admission with accepting := accepting } } := by
    split
    · exact ⟨true, rfl⟩
    · exact ⟨shared.admission.accepting, rfl⟩
  cases reply with
  | shutdown outcome =>
    cases outcome with
    | ok => exact .inl rfl
    | error => exact .inr ⟨by simp, reopened⟩
  | _ => exact .inr ⟨by simp, reopened⟩

theorem Disciplined.finishControl
    (stepped : system.finishControl = some next) : Disciplined next := by
  unfold System.finishControl at stepped
  split at stepped
  case h_1 request reply waiting answered =>
    have none_sent : system.requests = [] := by
      have tracked := ok.control.tracked
      rw [waiting, answered] at tracked
      rcases tracked with ⟨_, unanswered⟩ | ⟨none_sent, _⟩
      · cases unanswered
      · exact none_sent
    cases stepped
    rcases admissionAfterReply_cases system.shared reply with closed | ⟨running, _, opened⟩
    · rw [closed]
      exact ⟨{ ok.slots with }, { ok.receiver with }, { ok.control with
          paused := fun _ => rfl
          settled := False.elim
          tracked := ⟨none_sent, rfl⟩
          answered := fun _ answered => nomatch answered
          alone := fun _ => rfl
          stopped := fun _ => .inl ⟨rfl, .inl rfl⟩ }⟩
    · rw [opened]
      refine ⟨{ ok.slots with }, { ok.receiver with }, { ok.control with
          paused := fun busy => absurd rfl busy
          settled := False.elim
          tracked := ⟨none_sent, rfl⟩
          answered := fun _ answered => nomatch answered
          alone := fun _ => rfl
          stopped := fun stopped => ?_ }⟩
      rcases ok.control.stopped stopped with ⟨free, _⟩ | shut
      · cases waiting.symm.trans free
      · exact absurd (Option.some.inj (answered.symm.trans shut)) running
  case h_2 request waiting unanswered =>
    split at stepped
    case isTrue => cases stepped
    case isFalse gone =>
      -- a worker that has returned would have answered the request
      have returned := ok.receiver.returned (by simpa using gone)
      have stopped : system.worker.phase.Stopped := by rw [returned]; exact trivial
      exact absurd stopped (ok.control.not_stopped (by simp [waiting]) unanswered)
  case h_3 => cases stepped

theorem Disciplined.dropCoordinator
    (stepped : system.dropCoordinator = some next) : Disciplined next := by
  unfold System.dropCoordinator at stepped
  split at stepped
  case h_1 free =>
    cases stepped
    exact ⟨{ ok.slots with }, { ok.receiver with }, { ok.control with
        alone := fun _ => free
        stopped := fun stopped => (ok.control.stopped stopped).imp_left
          fun quit => ⟨quit.1, .inr rfl⟩ }⟩
  case h_2 => cases stepped

end Steps

end BoonCircuit.Persistence.Coordinator
