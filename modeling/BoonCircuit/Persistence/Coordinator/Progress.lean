import BoonCircuit.Persistence.Coordinator.Reservations

/-!
# The worker answers

Left to itself the worker comes to rest after finitely many steps, whatever the driver
answers.  A worker at rest has taken every request, so a caller that waits for a reply
finds one.  A request is handled while no turn is on its way.
-/

namespace BoonCircuit.Persistence.Coordinator

open Lib

variable {D : Type}

/-- The events that the worker takes by itself. -/
def Event.OfWorker : Event → Prop
  | .receive | .collect | .finishCollecting | .flush | .markDurable | .storeArtifact | .handle
  | .leaveLoop | .closeAdmission => True
  | _ => False

@[simp]
def AfterFlush.left : AfterFlush → Nat
  | .stop => 3
  | .control _ => 7
  | .artifacts works => works.length + 7

/-- A bound for the steps of the worker until it asks for the next message or has returned. -/
@[simp]
def WorkerPhase.left : WorkerPhase → Nat
  | .returned => 0
  | .closing => 1
  | .stopping => 2
  | .acknowledged next _ _ => next.left
  | .flushing next => next.left + 1
  | .receiving => 5
  | .handling _ => 6
  | .storing works => works.length + 6
  | .collecting works => works.length + 9

namespace System

/-- Every message costs more than the phases it leads to. -/
def left (system : System D) : Nat :=
  system.worker.phase.left + 4 * system.worker.deferred.toList.length +
    6 * system.channel.queue.length

/-- A step of the worker uses up some of the steps that are left and leaves the callers alone. -/
structure Advances (system next : System D) : Prop where
  left : next.left < system.left
  control : next.control = system.control

variable {sha256 : List UInt8 → Digest} {config : PersistenceWorkerConfig}
  {execute : D → PersistenceCommand → PersistenceResult × D} {system next : System D}
  {events : List Event} {request : ControlRequest}

theorem advances_of_phase (deferred : next.worker.deferred = system.worker.deferred)
    (queue : next.channel.queue = system.channel.queue) (control : next.control = system.control)
    (rank : next.worker.phase.left < system.worker.phase.left) : Advances system next := by
  refine ⟨?_, control⟩
  rw [left, left, deferred, queue]
  exact Nat.add_lt_add_right (Nat.add_lt_add_right rank _) _

theorem advances_receive (stepped : system.receive = some next) : Advances system next := by
  unfold receive at stepped
  split at stepped
  case h_1 receiving deferred =>
    cases stepped
    exact ⟨by simp [left, receiving, deferred], rfl⟩
  case h_2 message _ receiving deferred received =>
    cases stepped
    have shorter := congrArg List.length (Channel.received_of_receive received).queue
    rw [List.length_cons] at shorter
    cases message <;> refine ⟨?_, rfl⟩ <;> simp only [left, takeMessage, shorter] <;>
      simp [receiving, deferred] <;> omega
  case h_3 receiving _ _ =>
    split at stepped
    · cases stepped
      exact advances_of_phase rfl rfl rfl (by simp [goto, receiving])
    · cases stepped
  case h_4 => cases stepped

theorem advances_collect (stepped : system.collect config = some next) : Advances system next := by
  unfold collect at stepped
  split at stepped
  case h_1 message _ collecting received =>
    split at stepped
    · cases stepped
      have shorter := congrArg List.length (Channel.received_of_receive received).queue
      rw [List.length_cons] at shorter
      cases message <;> refine ⟨?_, rfl⟩ <;> simp only [left, collectMessage, shorter] <;>
        simp [collecting] <;> omega
    · cases stepped
  case h_2 => cases stepped

theorem advances_finishCollecting (stepped : system.finishCollecting config = some next) :
    Advances system next := by
  unfold finishCollecting at stepped
  split at stepped
  · next collecting =>
      split at stepped
      · cases stepped
        exact advances_of_phase rfl rfl rfl (by simp [goto, collecting])
      · cases stepped
  · cases stepped

theorem advances_afterFlush {outcome : Outcome Unit} {after : AfterFlush}
    (deferred : next.worker.deferred = system.worker.deferred)
    (queue : next.channel.queue = system.channel.queue) (control : next.control = system.control)
    (rank : after.left ≤ system.worker.phase.left) :
    Advances system (next.afterFlush execute outcome after) := by
  cases after with
  | control =>
    cases outcome <;> exact advances_of_phase deferred queue control
      (Nat.lt_of_lt_of_le (by simp [afterFlush, goto]) rank)
  | _ =>
    exact advances_of_phase deferred queue control
      (Nat.lt_of_lt_of_le (by simp [afterFlush, goto]) rank)

theorem advances_flush (stepped : system.flush sha256 execute = some next) :
    Advances system next := by
  unfold flush at stepped
  split at stepped
  · next flushing =>
      dsimp only at stepped
      split at stepped
      · cases stepped
        exact advances_afterFlush rfl rfl rfl (by simp [flushing])
      · cases stepped
        exact advances_of_phase rfl rfl rfl (by simp [goto, flushing])
  · cases stepped

theorem advances_markDurable (stepped : system.markDurable execute = some next) :
    Advances system next := by
  unfold markDurable at stepped
  split at stepped
  · next acknowledged =>
      dsimp only at stepped
      split at stepped <;> cases stepped <;>
        exact advances_afterFlush rfl rfl rfl (by simp [acknowledged])
  · cases stepped

theorem advances_storeArtifact (stepped : system.storeArtifact execute = some next) :
    Advances system next := by
  unfold storeArtifact at stepped
  split at stepped
  · next storing =>
      cases stepped
      exact advances_of_phase rfl rfl rfl (by simp [goto, storing])
  · next work works storing =>
      obtain ⟨_, _, same, _⟩ :=
        @handleAsyncArtifact_cases _ execute system.worker system.shared work
      generalize handleAsyncArtifact execute system.worker system.shared work = result
        at same stepped
      obtain ⟨_, _⟩ := result
      subst same
      cases stepped
      exact advances_of_phase rfl rfl rfl (by simp [storing])
  · cases stepped

theorem advances_handle (stepped : system.handle sha256 execute = some next) :
    Advances system next := by
  unfold handle at stepped
  split at stepped
  · next request handling =>
      have frame := handledFrame sha256 execute system.worker system.shared request
      generalize handleControl sha256 execute system.worker system.shared request = result
        at frame stepped
      cases stepped
      refine advances_of_phase frame.deferred rfl rfl ?_
      rcases phaseAfterReply_cases result.1 with same | ⟨same, _⟩ <;> simp [handling, same]
  · cases stepped

theorem Advances.of_step {event : Event} (internal : event.OfWorker)
    (stepped : system.step sha256 config execute event = some next) : Advances system next := by
  cases event with
  | receive => exact advances_receive stepped
  | collect => exact advances_collect stepped
  | finishCollecting => exact advances_finishCollecting stepped
  | flush => exact advances_flush stepped
  | markDurable => exact advances_markDurable stepped
  | storeArtifact => exact advances_storeArtifact stepped
  | handle => exact advances_handle stepped
  | leaveLoop =>
    simp only [step, leaveLoop] at stepped
    split at stepped
    · next stopping =>
        cases stepped
        exact advances_of_phase rfl rfl rfl (by simp [goto, stopping])
    · cases stepped
  | closeAdmission =>
    simp only [step, closeAdmission] at stepped
    split at stepped
    · next closing =>
        cases stepped
        exact advances_of_phase rfl rfl rfl (by simp [goto, closing])
    · cases stepped
  | _ => exact internal.elim

/-- A worker that runs by itself stops after finitely many steps. -/
theorem length_le_of_run (internal : ∀ event ∈ events, event.OfWorker)
    (ran : system.run sha256 config execute events = some next) :
    events.length + next.left ≤ system.left ∧ next.control = system.control := by
  induction events generalizing system with
  | nil =>
    cases ran
    exact ⟨Nat.le_of_eq (Nat.zero_add _), rfl⟩
  | cons event events ih =>
    rw [run, List.foldlM_cons] at ran
    obtain ⟨middle, stepped, ran⟩ := Option.bind_eq_some_iff.mp ran
    have advances := Advances.of_step (internal _ List.mem_cons_self) stepped
    obtain ⟨bound, control⟩ := ih (fun _ member => internal _ (List.mem_cons_of_mem _ member)) ran
    have first := advances.left
    refine ⟨?_, control.trans advances.control⟩
    rw [List.length_cons]
    omega

/-- The worker has returned, or there is nothing for it to do. -/
def Resting (system : System D) : Prop :=
  system.worker.phase = .returned ∨
    system.worker.phase = .receiving ∧ system.worker.deferred = none ∧ system.channel.queue = []

theorem resting_of_stuck (stuck : ∀ event : Event, event.OfWorker →
    system.step sha256 config execute event = none) : system.Resting := by
  cases phase : system.worker.phase with
  | returned => exact .inl phase
  | receiving =>
    have unable := stuck .receive trivial
    cases deferred : system.worker.deferred with
    | some => simp [step, receive, phase, deferred] at unable
    | none =>
      cases received : system.channel.receive with
      | none => exact .inr ⟨phase, deferred, Channel.receive_eq_none_iff.mp received⟩
      | some => simp [step, receive, phase, deferred, received] at unable
  | collecting works =>
    have unable := stuck .collect trivial
    have unready := stuck .finishCollecting trivial
    cases received : system.channel.receive with
    | none =>
      simp [step, finishCollecting, phase, Channel.receive_eq_none_iff.mp received] at unready
    | some =>
      simp [step, collect, phase, received] at unable
      simp [step, finishCollecting, phase, unable] at unready
  | flushing next =>
    have unable := stuck .flush trivial
    simp only [step, flush, phase] at unable
    split at unable <;> cases unable
  | acknowledged =>
    have unable := stuck .markDurable trivial
    simp only [step, markDurable, phase] at unable
    split at unable <;> cases unable
  | storing works =>
    have unable := stuck .storeArtifact trivial
    cases works <;> simp [step, storeArtifact, phase] at unable
  | handling =>
    have unable := stuck .handle trivial
    simp [step, handle, phase] at unable
  | stopping =>
    have unable := stuck .leaveLoop trivial
    simp [step, leaveLoop, phase] at unable
  | closing =>
    have unable := stuck .closeAdmission trivial
    simp [step, closeAdmission, phase] at unable

theorem Resting.answered (resting : system.Resting) (ok : ControlOk system)
    (waiting : system.control = .waiting request) : ∃ reply, system.reply = some reply := by
  rcases resting with returned | ⟨receiving, deferred, queue⟩
  · rcases ok.stopped (by rw [returned]; trivial) with ⟨free, _⟩ | answered
    · cases waiting.symm.trans free
    · exact ⟨_, answered⟩
  · have none_sent : system.requests = [] := by
      simp [requests, incoming, receiving, deferred, queue, WorkerPhase.request?]
    have tracked := ok.tracked
    rw [waiting] at tracked
    rcases tracked with ⟨sent, _⟩ | ⟨_, answered⟩
    · cases none_sent.symm.trans sent
    · exact Option.isSome_iff_exists.mp answered

section Runs

variable {driver : D} {initialImage : RestoreImage}
  (started : System.start execute config driver initialImage = .ok system)
  (steps : Relation.ReflTransGen (Steps sha256 config execute) system next)
include started steps

/-- A caller that waits for a reply gets one: in every interleaving and for every answer of the
driver, the worker stops after a bounded number of steps of its own, and wherever it stops the
reply is there. -/
theorem waiting_caller_answered (waiting : next.control = .waiting request) (events : List Event)
    (internal : ∀ event ∈ events, event.OfWorker) {final : System D}
    (ran : next.run sha256 config execute events = some final) :
    events.length ≤ next.left ∧
      ((∀ event : Event, event.OfWorker → final.step sha256 config execute event = none) →
        ∃ reply, final.reply = some reply) := by
  obtain ⟨bound, control⟩ := length_le_of_run internal ran
  refine ⟨Nat.le_of_add_right_le bound, fun stuck => ?_⟩
  have ok : Disciplined final :=
    ((Disciplined.start started).run steps).run (steps_of_run sha256 config execute events ran)
  exact (resting_of_stuck stuck).answered ok.control (control.trans waiting)

/-- A control request is handled alone: admission is paused, no reservation is held, and every
turn that was accepted is durable. -/
theorem control_handled_alone (handling : next.worker.phase = .handling request) :
    next.control = .waiting request ∧ next.requests = [request] ∧ next.reply = none ∧
      next.shared.admission.accepting = false ∧ next.held = 0 ∧ next.undelivered = [] := by
  have ok := (Disciplined.start started).run steps
  have busy : next.worker.phase.request? = some request := by rw [handling]; rfl
  have sent : request ∈ next.requests := by
    simp [requests, incoming, busy, WorkerMessage.control?]
  obtain ⟨waiting, alone, unanswered⟩ := ok.control.waiting sent
  refine ⟨waiting, alone, unanswered, ok.control.paused ?_, ok.control.settled ?_, ?_⟩
  · rw [waiting]
    rintro ⟨⟩
  · rw [waiting]
    trivial
  · rw [undelivered, ok.control.handling request handling, List.nil_append]
    exact (ok.control.busy busy).2.2

end Runs

theorem waiting_caller_answered_barrier :
    ∃ next final, Relation.ReflTransGen
        (Steps zeroHash narrowConfig (InMemoryDriver.execute zeroHash)) narrowSystem next ∧
      next.control = .waiting .barrier ∧
      next.run zeroHash narrowConfig (InMemoryDriver.execute zeroHash) [.receive, .flush, .handle] =
        some final ∧ ∃ reply, final.reply = some reply := by
  have steps := steps_of_run zeroHash narrowConfig (InMemoryDriver.execute zeroHash)
    [.requestControl .barrier, .reservationsDrained, .sendControl]
    (show narrowSystem.run _ _ _ _ = some _ from rfl)
  refine ⟨_, _, steps, rfl, rfl, (waiting_caller_answered start_narrow steps rfl
    [.receive, .flush, .handle] (by simp [Event.OfWorker]) rfl).2 fun event internal => ?_⟩
  cases event <;> first | rfl | exact internal.elim

theorem control_handled_alone_barrier :
    ∃ next, Relation.ReflTransGen
        (Steps zeroHash narrowConfig (InMemoryDriver.execute zeroHash)) narrowSystem next ∧
      next.worker.phase = .handling .barrier ∧ next.held = 0 ∧ next.undelivered = [] := by
  have steps := steps_of_run zeroHash narrowConfig (InMemoryDriver.execute zeroHash)
    [.requestControl .barrier, .reservationsDrained, .sendControl, .receive, .flush]
    (show narrowSystem.run _ _ _ _ = some _ from rfl)
  exact ⟨_, steps, rfl, (control_handled_alone start_narrow steps rfl).2.2.2.2⟩

end System

end BoonCircuit.Persistence.Coordinator
