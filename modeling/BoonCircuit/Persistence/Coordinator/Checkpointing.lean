import BoonCircuit.Lib.Enumeration
import BoonCircuit.Lib.Word
import BoonCircuit.Persistence.Coordinator.Reservations

/-!
# Ordered checkpoints

Accepted turns are numbered without a gap from the durable turn, stand in this order
in the worker and in its channel, and go into acknowledged checkpoints in this order.
The two things that break this order are a turn accepted at the end of the number
range and an activation of another application; a run without them keeps it.
-/

namespace BoonCircuit.Persistence.Coordinator

open Data Lib SharedState Numbered Relation List Coordinator.System InMemoryDriver

/-- The number of the last turn that was accepted or became durable. -/
def SharedState.lastAdmitted (shared : SharedState) : UInt64 :=
  shared.admission.pending.getLast?.getD shared.durableTurn

namespace System

variable {D : Type}

/-- The numbers are not used up when a turn is enqueued, and control requests concern the
worker's own application. -/
def Regular (system : System D) : Event → Prop
  | .enqueue turn =>
    turn.turnSequence ≠ 0xFFFFFFFFFFFFFFFF ∨ system.shared.lastAdmitted ≠ 0xFFFFFFFFFFFFFFFF
  | .handle => ∀ request, system.worker.phase = .handling request →
      request.Own system.worker.durable
  | _ => True

def RegularSteps (sha256 : List UInt8 → Digest) (config : PersistenceWorkerConfig)
    (execute : D → PersistenceCommand → PersistenceResult × D) (system next : System D) : Prop :=
  ∃ event, system.Regular event ∧ system.step sha256 config execute event = some next

end System

/-- The commit whose acknowledgement the worker is about to mark. -/
def WorkerPhase.acknowledged? : WorkerPhase → Option (CheckpointBatch × CommitAck)
  | .acknowledged _ batch ack => some (batch, ack)
  | _ => none

/-- The acknowledged commits contain the durable turns, in order and without splitting any. -/
def Recorded {D : Type} (sha256 : List UInt8 → Digest) (system : System D) : Prop :=
  ∃ groups,
    List.Forall₂ (CheckpointOf sha256) system.history.committed groups ∧
    system.history.accepted = groups.flatten ++ system.undelivered ∧
    groups.flatten.Pairwise (fun earlier later => earlier.turnSequence < later.turnSequence) ∧
    ∀ turn ∈ groups.flatten, turn.turnSequence ≤ system.shared.durableTurn

/-- The turns flow through queue, worker and store in the order of their numbers. -/
structure Flow {D : Type} (sha256 : List UInt8 → Digest) (through : D → TurnView)
    (application : ApplicationIdentity) (system : System D) : Prop where
  owner : system.worker.durable.application = application
  cursor : system.worker.durable.throughTurnSequence = system.shared.durableTurn
  admitted : system.shared.admission.pending = system.undelivered.map (·.turnSequence)
  numbered : Numbered UInt64.toNat system.shared.durableTurn.toNat system.shared.admission.pending
  next : system.shared.admission.nextTurnSequence = saturatingSucc system.shared.lastAdmitted
  stored : through system.worker.driver application =
    some ((system.worker.phase.acknowledged?.map (·.2.throughTurnSequence)).getD
      system.shared.durableTurn)
  acknowledged : ∀ batch ack, system.worker.phase.acknowledged? = some (batch, ack) →
    CheckpointOf sha256 batch system.worker.pending ∧
      ack.throughTurnSequence = batch.lastTurnSequence
  recorded : Recorded sha256 system

section Steps

variable {sha256 : List UInt8 → Digest} {D : Type}
variable {execute : D → PersistenceCommand → PersistenceResult × D} {through : D → TurnView}
variable {application : ApplicationIdentity} {system next : System D} {value successor : UInt64}

theorem toNat_saturatingSucc (below : value ≠ 0xFFFFFFFFFFFFFFFF) :
    (saturatingSucc value).toNat = value.toNat + 1 := by
  rw [saturatingSucc, if_neg below]
  exact toNat_increment below

theorem eq_saturatingSucc
    (follows : successor.toNat = value.toNat + 1) : successor = saturatingSucc value := by
  apply UInt64.toNat.inj
  rw [toNat_saturatingSucc, follows]
  rintro rfl
  have bound := successor.toNat_lt
  rw [follows] at bound
  exact absurd bound (by decide)

theorem Flow.toNat_lastAdmitted (flow : Flow sha256 through application system) :
    system.shared.lastAdmitted.toNat =
      system.shared.durableTurn.toNat + system.shared.admission.pending.length := by
  unfold lastAdmitted
  cases last_eq : system.shared.admission.pending.getLast? with
  | none => simp [getLast?_eq_none_iff.mp last_eq]
  | some => exact flow.numbered.getLast_eq last_eq

theorem Recorded.congr (recorded : Recorded sha256 system) (history : next.history = system.history)
    (undelivered : next.undelivered = system.undelivered)
    (durableTurn : next.shared.durableTurn = system.shared.durableTurn) : Recorded sha256 next := by
  rw [Recorded, history, undelivered, durableTurn]
  exact recorded

/-- What the turns on their way to a checkpoint pass.  Turns that the worker has taken count once
their commit is acknowledged. -/
def System.course (through : D → TurnView) (system : System D) :=
  (system.shared.durableTurn, system.shared.admission.pending,
    system.shared.admission.nextTurnSequence, system.worker.durable, system.undelivered,
    through system.worker.driver, system.worker.phase.acknowledged?,
    system.worker.phase.acknowledged?.map fun _ => system.worker.pending, system.history)

section Kept

variable (flow : Flow sha256 through application system) {config : PersistenceWorkerConfig}
  {channel : Channel WorkerMessage} {batch : CheckpointBatch} {turn : AuthorityTurn}
include flow

theorem Flow.congr (same : next.course through = system.course through) :
    Flow sha256 through application next := by
  simp only [course, Prod.mk.injEq] at same
  obtain ⟨durableTurn, pending, nextTurn, durable, undelivered, driver, phase, taken,
    history⟩ := same
  constructor
  case owner => rw [durable, flow.owner]
  case cursor => rw [durable, durableTurn, flow.cursor]
  case admitted => rw [pending, undelivered, flow.admitted]
  case numbered =>
    rw [pending, durableTurn]
    exact flow.numbered
  case next => rw [nextTurn, flow.next, lastAdmitted, lastAdmitted, pending, durableTurn]
  case stored => rw [driver, phase, durableTurn, flow.stored]
  case acknowledged =>
    intro batch ack acknowledged
    rw [phase] at acknowledged taken
    rw [acknowledged] at taken
    rw [show next.worker.pending = _ from Option.some.inj taken]
    exact flow.acknowledged batch ack acknowledged
  case recorded => exact flow.recorded.congr history undelivered durableTurn

theorem Flow.enqueue (regular : system.Regular (.enqueue turn))
    (stepped : system.enqueue turn = some next) : Flow sha256 through application next := by
  unfold System.enqueue at stepped
  split at stepped
  case isTrue => cases stepped
  case isFalse =>
    have ended := enqueued system.shared system.channel turn
    generalize system.shared.enqueue system.channel turn = result at ended stepped
    cases ended with
    | accepted sent serving expected delivered =>
      cases stepped
      have follows : turn.turnSequence.toNat = system.shared.lastAdmitted.toNat + 1 := by
        rw [expected, flow.next]
        apply toNat_saturatingSucc
        intro used_up
        have used_again : turn.turnSequence = 0xFFFFFFFFFFFFFFFF := by
          rw [expected, flow.next, used_up]
          rfl
        exact regular.elim (absurd used_again) (absurd used_up)
      have undelivered_eq : undelivered { system with channel := sent } =
          system.undelivered ++ [turn] := by
        simp [undelivered, delivered.queue, WorkerMessage.turn?]
      refine ⟨flow.owner, flow.cursor, ?_, ?_, ?_, flow.stored, flow.acknowledged, ?_⟩
      · change _ = (undelivered { system with channel := sent }).map _
        rw [undelivered_eq, map_append, ← flow.admitted]
        rfl
      · apply concat flow.numbered
        rw [follows, flow.toNat_lastAdmitted]
      · simp [accept, lastAdmitted]
      · rcases flow.recorded with ⟨groups, committed, accepted, ordered, durable⟩
        refine ⟨groups, committed, ?_, ordered, durable⟩
        change _ = _ ++ undelivered { system with channel := sent }
        rw [undelivered_eq, ← append_assoc, ← accepted]
        rfl
    | refused error | exited gone =>
      cases stepped
      exact flow.congr rfl

theorem Flow.artifactQueued {shared : SharedState}
    (queued : ArtifactQueued system.shared system.channel (shared, channel)) :
    Flow sha256 through application { system with shared := shared, channel := channel } := by
  cases queued with
  | sent _ work _ same delivered =>
    apply flow.congr
    simp [course, same.admission, same.durableTurn, undelivered, delivered.queue,
      WorkerMessage.turn?]
  | refused _ same =>
    apply flow.congr
    simp [course, same.admission, same.durableTurn, undelivered]
  | exited _ same =>
    apply flow.congr
    simp [course, markWorkerExited, SharedState.closeAdmission, same.admission, same.durableTurn,
      undelivered]

theorem Flow.sendControl
    (stepped : system.sendControl = some next) : Flow sha256 through application next := by
  unfold System.sendControl at stepped
  split at stepped
  case h_1 request _ =>
    split at stepped
    case h_1 sent delivered =>
      have delivered := Channel.sent_of_trySend delivered
      cases stepped
      apply flow.congr
      simp [course, undelivered, delivered.queue, WorkerMessage.turn?]
    case h_2 => cases stepped
    case h_3 =>
      cases stepped
      exact flow.congr rfl
  case h_2 => cases stepped

theorem Flow.finishControl
    (stepped : system.finishControl = some next) : Flow sha256 through application next := by
  unfold System.finishControl at stepped
  split at stepped
  case h_1 reply _ _ =>
    cases stepped
    rcases admissionAfterReply_cases system.shared reply with closed | ⟨_, _, opened⟩
    · rw [closed]
      exact flow.congr rfl
    · rw [opened]
      exact flow.congr rfl
  case h_2 =>
    split at stepped
    case isTrue => cases stepped
    case isFalse =>
      cases stepped
      exact flow.congr rfl
  case h_3 => cases stepped

theorem Flow.take {message : WorkerMessage} (received : system.channel.Received message channel)
    (idle : system.worker.phase.acknowledged? = none) {deferred : Option ControlRequest}
    {phase : WorkerPhase} (unacknowledged : phase.acknowledged? = none)
    {pending : List AuthorityTurn}
    (taken : system.worker.pending ++ message.turn?.toList = pending) :
    Flow sha256 through application { system with
      channel := channel
      worker := { system.worker with
        pending := pending
        deferred := deferred
        phase := phase } } := by
  apply flow.congr
  cases message <;> simp [course, undelivered, received.queue, WorkerMessage.turn?, ← taken, idle,
    unacknowledged]

theorem Flow.receive
    (stepped : system.receive = some next) : Flow sha256 through application next := by
  unfold System.receive at stepped
  split at stepped
  case h_1 request receiving deferred =>
    cases stepped
    exact flow.congr (by rw [course, course, receiving]; rfl)
  case h_2 message channel receiving deferred received =>
    have received := Channel.received_of_receive received
    have idle : system.worker.phase.acknowledged? = none := by rw [receiving]; rfl
    cases stepped
    cases message with
    | turn => exact flow.take received idle rfl rfl
    | artifact work | control request => exact flow.take received idle rfl (append_nil _)
  case h_3 receiving deferred empty =>
    split at stepped
    case isTrue =>
      cases stepped
      exact flow.congr (by rw [course, course, receiving]; rfl)
    case isFalse => cases stepped
  case h_4 => cases stepped

theorem Flow.collect
    (stepped : system.collect config = some next) : Flow sha256 through application next := by
  unfold System.collect at stepped
  split at stepped
  case h_1 works message channel collecting received =>
    have received := Channel.received_of_receive received
    have idle : system.worker.phase.acknowledged? = none := by rw [collecting]; rfl
    split at stepped
    case isTrue =>
      cases stepped
      cases message with
      | turn => exact flow.take received idle idle rfl
      | artifact work | control request => exact flow.take received idle rfl (append_nil _)
    case isFalse => cases stepped
  case h_2 => cases stepped

theorem Flow.afterFlush (law : LawfulDriver execute through)
    (idle : system.worker.phase.acknowledged? = none) (outcome : Outcome Unit) (after : AfterFlush)
    : Flow sha256 through application (system.afterFlush execute outcome after) := by
  cases after with
  | artifacts => exact flow.congr (by rw [course, course, idle]; rfl)
  | control => cases outcome <;> exact flow.congr (by rw [course, course, idle]; rfl)
  | stop =>
    have unmoved : through (execute system.worker.driver .shutdown).2 = _ := law.moves _ _
    exact flow.congr (by rw [course, course, idle, System.afterFlush, unmoved]; rfl)

theorem Flow.flush (law : LawfulDriver execute through)
    (stepped : system.flush sha256 execute = some next) : Flow sha256 through application next := by
  unfold System.flush at stepped
  split at stepped
  case h_1 after flushing =>
    have idle : system.worker.phase.acknowledged? = none := by rw [flushing]; rfl
    have ended := flushed sha256 execute system.worker system.shared
    generalize flushPending sha256 execute system.worker system.shared = result at ended stepped
    cases ended with
    | empty =>
      cases stepped
      exact flow.afterFlush law idle _ _
    | unsent error shared same =>
      cases stepped
      refine Flow.afterFlush ?_ law ?_ _ _
      · exact flow.congr (by simp [course, undelivered, same.admission, same.durableTurn])
      · exact idle
    | refused error shared same batch unacknowledged =>
      cases stepped
      have refused : ∀ ack,
          (execute system.worker.driver (.commit batch)).1 ≠ .committed (.ok ack) :=
        fun ack answer => (unacknowledged ack).elim (absurd answer)
          (absurd (law.committed _ _ _ answer))
      refine Flow.afterFlush ?_ law ?_ _ _
      · apply flow.congr
        simp [course, undelivered, same.admission, same.durableTurn,
          unmoved_of_not_committed law rfl refused]
      · exact idle
    | acknowledged batch holds own answer =>
      cases stepped
      refine ⟨flow.owner, flow.cursor, flow.admitted, flow.numbered, flow.next, ?_, ?_,
        flow.recorded.congr rfl rfl rfl⟩
      · change through (execute system.worker.driver (.commit batch)).2 application = _
        rw [moved_of_committed law (Prod.ext answer rfl), own, flow.owner, Function.update_self]
        rfl
      · rintro _ _ ⟨⟩
        exact ⟨holds, rfl⟩
  case h_2 => cases stepped

theorem Flow.markDurable_eq {ack : CommitAck}
    (acknowledged : system.worker.phase.acknowledged? = some (batch, ack)) :
    system.shared.markDurable ack.epoch ack.throughTurnSequence =
      (.ok (), { system.shared with
        durableEpoch := ack.epoch
        durableTurn := ack.throughTurnSequence
        admission := { system.shared.admission with
          pending := (system.channel.queue.filterMap (·.turn?)).map (·.turnSequence) } }) := by
  rcases flow.acknowledged batch ack acknowledged with ⟨holds, through_eq⟩
  have pending_eq := flow.admitted
  rw [undelivered, map_append] at pending_eq
  have numbered := flow.numbered
  rw [pending_eq] at numbered
  rcases append_iff.mp numbered with ⟨taken, waiting⟩
  have last := holds.last
  rw [← getLast?_map, ← through_eq] at last
  have through_toNat := taken.getLast_eq last
  have first := holds.first
  rw [← head?_map] at first
  have dropped : (fun number => decide (number ≤ ack.throughTurnSequence)) =
      fun number : UInt64 => decide (number.toNat ≤ system.shared.durableTurn.toNat +
        (system.worker.pending.map (·.turnSequence)).length) := by
    funext number
    rw [← through_toNat]
    exact decide_eq_decide.mpr UInt64.le_iff_toNat_le
  have remaining : system.shared.admission.pending.dropWhile (· ≤ ack.throughTurnSequence) =
      (system.channel.queue.filterMap (·.turn?)).map (·.turnSequence) := by
    rw [dropped, pending_eq]
    exact numbered.dropWhile_eq
  rcases head?_eq_some_iff.mp first with ⟨_, taken_eq⟩
  have first_toNat := (cons_iff.mp (taken_eq ▸ taken)).1
  have first_eq := eq_saturatingSucc first_toNat
  have ordered : ¬ ack.throughTurnSequence < batch.firstTurnSequence := by
    rw [UInt64.lt_iff_toNat_lt, through_toNat, taken_eq, length_cons]
    omega
  have follows : ¬ ∃ number ∈ ((system.channel.queue.filterMap (·.turn?)).map
      (·.turnSequence)).head?, number ≠ saturatingSucc ack.throughTurnSequence := by
    rintro ⟨number, head, gap⟩
    rcases head?_eq_some_iff.mp head with ⟨_, waiting_eq⟩
    rw [waiting_eq, ← through_toNat] at waiting
    exact gap (eq_saturatingSucc (cons_iff.mp waiting).1)
  unfold SharedState.markDurable
  split
  case h_1 empty =>
    rw [empty, taken_eq] at pending_eq
    cases pending_eq
  case h_2 head _ shape =>
    rw [shape, taken_eq] at pending_eq
    obtain ⟨rfl, -⟩ := pending_eq
    rw [remaining, if_neg, if_neg follows]
    rw [not_or, not_not]
    exact ⟨first_eq, ordered⟩

omit flow in
theorem Recorded.append (recorded : Recorded sha256 system)
    {turns : List AuthorityTurn} (holds : CheckpointOf sha256 batch turns)
    (numbered : Numbered UInt64.toNat system.shared.durableTurn.toNat (turns.map (·.turnSequence)))
    (committed : next.history.committed = system.history.committed ++ [batch])
    (accepted : ∀ groups : List (List AuthorityTurn),
      system.history.accepted = groups.flatten ++ system.undelivered →
        next.history.accepted = groups.flatten ++ turns ++ next.undelivered)
    (last : (turns.map (·.turnSequence)).getLast? = some next.shared.durableTurn) :
    Recorded sha256 next := by
  rcases recorded with ⟨groups, committed_eq, accepted_eq, ordered, durable⟩
  have increasing : turns.Pairwise fun earlier later =>
      earlier.turnSequence < later.turnSequence :=
    (pairwise_map.mp numbered.pairwise).imp UInt64.lt_iff_toNat_lt.mpr
  have above : ∀ turn ∈ turns, system.shared.durableTurn < turn.turnSequence := fun turn member =>
    UInt64.lt_iff_toNat_lt.mpr (numbered.lt_of_mem (mem_map_of_mem member))
  have last_toNat := numbered.getLast_eq last
  have upto : ∀ turn ∈ turns, turn.turnSequence ≤ next.shared.durableTurn := by
    intro turn member
    rw [UInt64.le_iff_toNat_le, last_toNat]
    exact numbered.le_of_mem (mem_map_of_mem member)
  have forwards : system.shared.durableTurn ≤ next.shared.durableTurn := by
    rw [UInt64.le_iff_toNat_le, last_toNat]
    omega
  refine ⟨groups ++ [turns], ?_, ?_, ?_, ?_⟩
  · rw [committed]
    exact rel_append committed_eq (.cons holds .nil)
  · rw [flatten_append, flatten_singleton, accepted groups accepted_eq]
  · rw [flatten_append, flatten_singleton, pairwise_append]
    exact ⟨ordered, increasing, fun earlier first later second =>
      UInt64.lt_of_le_of_lt (durable earlier first) (above later second)⟩
  · intro turn member
    rw [flatten_append, flatten_singleton, mem_append] at member
    rcases member with before | now
    · exact UInt64.le_trans (durable turn before) forwards
    · exact upto turn now

theorem Flow.markDurable (law : LawfulDriver execute through)
    (stepped : system.markDurable execute = some next) : Flow sha256 through application next := by
  unfold System.markDurable at stepped
  split at stepped
  case h_1 after batch ack phase =>
    have acknowledged : system.worker.phase.acknowledged? = some (batch, ack) := by
      rw [phase]
      rfl
    rw [flow.markDurable_eq acknowledged] at stepped
    cases stepped
    rcases flow.acknowledged batch ack acknowledged with ⟨holds, through_eq⟩
    have pending_eq := flow.admitted
    rw [undelivered, map_append] at pending_eq
    have numbered := flow.numbered
    rw [pending_eq] at numbered
    rcases append_iff.mp numbered with ⟨taken, waiting⟩
    have last := holds.last
    rw [← getLast?_map, ← through_eq] at last
    have marked : Flow sha256 through application { system with
        shared := { system.shared with
          durableEpoch := ack.epoch
          durableTurn := ack.throughTurnSequence
          admission := { system.shared.admission with
            pending := (system.channel.queue.filterMap (·.turn?)).map (·.turnSequence) } }
        history := { system.history with committed := system.history.committed ++ [batch] }
        worker := { system.worker with
          pending := []
          phase := .receiving
          durable := { system.worker.durable with
            epoch := ack.epoch
            throughTurnSequence := ack.throughTurnSequence } } } := by
      refine ⟨flow.owner, rfl, rfl, ?_, ?_, ?_, ?_, ?_⟩
      · rw [← taken.getLast_eq last] at waiting
        exact waiting
      · rw [flow.next, lastAdmitted, pending_eq, getLast?_append, last]
        simp only [lastAdmitted]
        cases getLast? _ <;> rfl
      · rw [flow.stored, acknowledged]
        rfl
      · rintro _ _ ⟨⟩
      · refine flow.recorded.append holds taken rfl (fun groups accepted => ?_) last
        rw [append_assoc]
        exact accepted
    have resumed := marked.afterFlush law rfl (.ok ()) after
    cases after with
    | _ => exact resumed
  case h_2 => cases stepped

theorem Flow.storeArtifact (law : LawfulDriver execute through)
    (stepped : system.storeArtifact execute = some next) :
    Flow sha256 through application next := by
  unfold System.storeArtifact at stepped
  split at stepped
  case h_1 storing =>
    cases stepped
    exact flow.congr (by rw [course, course, storing]; rfl)
  case h_2 work works storing =>
    rcases @handleAsyncArtifact_cases _ execute system.worker system.shared work with
      ⟨_, unmoved, worker_eq, same⟩
    generalize handleAsyncArtifact execute system.worker system.shared work = result
      at worker_eq same stepped
    rcases result with ⟨worker, shared⟩
    subst worker_eq
    dsimp only at same
    cases stepped
    apply flow.congr
    simp [course, undelivered, same.admission, same.durableTurn, storing, law.moves, unmoved,
      WorkerPhase.acknowledged?]
  case h_3 => cases stepped

omit flow in
theorem historyAfter_eq {request : ControlRequest} {reply : ControlReply}
    (plain : ∀ turn ack, request = .immediateTurn turn → reply ≠ .immediateTurn (.ok ack)) :
    system.historyAfter sha256 request reply = system.history := by
  unfold historyAfter
  split
  case h_1 turn ack => exact absurd rfl (plain turn ack rfl)
  case h_2 => rfl

omit flow in
theorem checkpointOf_immediate {durable : DurableCursor} {epoch : UInt64} :
    CheckpointOf sha256 (durable.immediateCheckpoint sha256 epoch turn) [turn] :=
  ⟨⟨_, _, _, _, rfl⟩, rfl, rfl⟩

omit flow in
theorem toNat_of_checkedSucc
    (checked : checkedSucc value = some successor) : successor.toNat = value.toNat + 1 := by
  unfold checkedSucc at checked
  split at checked
  case isTrue => cases checked
  case isFalse below =>
    cases checked
    exact toNat_increment below

theorem Flow.handle (ok : Disciplined system) (law : LawfulDriver execute through)
    (regular : system.Regular .handle) (stepped : system.handle sha256 execute = some next) :
    Flow sha256 through application next := by
  unfold System.handle at stepped
  split at stepped
  case h_1 request handling =>
    have busy : system.worker.phase.request? = some request := by rw [handling]; rfl
    have idle : system.worker.phase.acknowledged? = none := by rw [handling]; rfl
    have calm (reply : ControlReply) : (phaseAfterReply reply).acknowledged? = none := by
      rcases phaseAfterReply_cases reply with same | ⟨same, _⟩ <;> rw [same] <;> rfl
    have empty : system.worker.pending = [] := ok.control.handling request handling
    have none_waiting := (ok.control.busy busy).2.2
    have none_left : system.undelivered = [] := by
      rw [undelivered, empty, none_waiting]
      rfl
    have none_pending : system.shared.admission.pending = [] := by
      rw [flow.admitted, none_left]
      rfl
    have stored := flow.stored
    rw [idle] at stored
    have answers : Handled sha256 through system.worker system.shared request
        (handleControl sha256 execute system.worker system.shared request) :=
      handled law (regular request handling)
    generalize handleControl sha256 execute system.worker system.shared request = result
      at answers stepped
    cases answers with
    | kept reply driver shared same unmoved plain =>
      cases stepped
      apply flow.congr
      simp [course, undelivered, same.admission, same.durableTurn, unmoved, calm, idle,
        historyAfter_eq plain]
    | committed turn ack driver request_eq expected through_eq moved =>
      cases stepped
      subst request_eq
      rw [flow.cursor] at expected
      have follows := toNat_of_checkedSucc expected
      refine ⟨flow.owner, rfl, ?_, ?_, ?_, ?_, ?_, ?_⟩
      · exact flow.admitted
      · exact none_pending.symm ▸ .nil
      · simp only [markActivation, none_pending]
        rfl
      · rw [← flow.owner, through_eq]
        exact (congrFun moved _).trans (Function.update_self _ _ _)
      · rintro _ _ ⟨⟩
      · refine flow.recorded.append checkpointOf_immediate
          (cons_iff.mpr ⟨follows, .nil⟩) rfl (fun groups accepted => ?_) ?_
        · rw [none_left, append_nil] at accepted
          change system.history.accepted ++ [turn] = _ ++ system.undelivered
          rw [accepted, none_left, append_nil]
        · exact congrArg some through_eq.symm
    | adopted reply driver epoch schemaHash before turn found onwards moved plain =>
      cases stepped
      rw [flow.owner, stored] at found
      obtain rfl := Option.some.inj found
      refine ⟨flow.owner, rfl, ?_, ?_, ?_, ?_, ?_, ?_⟩
      · exact flow.admitted
      · exact none_pending.symm ▸ .nil
      · simp only [markActivation, none_pending]
        rfl
      · rw [← flow.owner, calm reply]
        exact (congrFun moved _).trans (Function.update_self _ _ _)
      · intro batch ack acknowledged
        cases (calm reply).symm.trans acknowledged
      · rcases flow.recorded with ⟨groups, committed, accepted, ordered, durable⟩
        rw [historyAfter_eq plain]
        exact ⟨groups, committed, accepted, ordered, fun turn member =>
          UInt64.le_trans (durable turn member) onwards⟩
  case h_2 => cases stepped

theorem Flow.step (ok : Disciplined system) (law : LawfulDriver execute through) {event : Event}
    (regular : system.Regular event)
    (stepped : system.step sha256 config execute event = some next) :
    Flow sha256 through application next := by
  cases event with
  | tryReserveTurn =>
    rcases tryReserveTurn_cases stepped with rfl | ⟨_, _, rfl⟩
    · exact flow
    · exact flow.congr rfl
  | enqueue => exact flow.enqueue regular stepped
  | dropReservation =>
    change dropReservation system = some next at stepped
    unfold dropReservation at stepped
    split at stepped
    · cases stepped
    · cases stepped
      exact flow.congr rfl
  | tryPutContentArtifact =>
    obtain ⟨_, _, queued, rfl⟩ := tryPutContentArtifact_cases stepped
    exact flow.artifactQueued queued
  | tryLoadContentArtifact =>
    obtain ⟨_, _, queued, rfl⟩ := tryLoadContentArtifact_cases stepped
    exact flow.artifactQueued queued
  | takeStoreCompletions | takeLoadCompletions =>
    cases stepped
    exact flow.congr rfl
  | requestControl request =>
    change requestControl system request = some next at stepped
    unfold requestControl at stepped
    split at stepped
    · split at stepped <;> cases stepped
      · exact flow
      · exact flow.congr rfl
    · cases stepped
  | reservationsDrained =>
    change reservationsDrained system = some next at stepped
    unfold reservationsDrained at stepped
    split at stepped
    · split at stepped <;> cases stepped
      exact flow.congr rfl
    · cases stepped
  | sendControl => exact flow.sendControl stepped
  | finishControl => exact flow.finishControl stepped
  | dropCoordinator =>
    change dropCoordinator system = some next at stepped
    unfold dropCoordinator at stepped
    split at stepped <;> cases stepped
    exact flow.congr rfl
  | receive => exact flow.receive stepped
  | collect => exact flow.collect stepped
  | finishCollecting =>
    change finishCollecting config system = some next at stepped
    unfold finishCollecting at stepped
    split at stepped
    case h_1 works collecting =>
      split at stepped <;> cases stepped
      exact flow.congr (by rw [course, course, collecting]; rfl)
    case h_2 => cases stepped
  | flush => exact flow.flush law stepped
  | markDurable => exact flow.markDurable law stepped
  | storeArtifact => exact flow.storeArtifact law stepped
  | handle => exact flow.handle ok law regular stepped
  | leaveLoop =>
    change leaveLoop system = some next at stepped
    unfold leaveLoop at stepped
    split at stepped
    case h_1 stopping =>
      cases stepped
      exact flow.congr (by rw [course, course, stopping]; rfl)
    case h_2 => cases stepped
  | closeAdmission =>
    change closeAdmission system = some next at stepped
    unfold System.closeAdmission at stepped
    split at stepped
    case h_1 closing =>
      cases stepped
      exact flow.congr (by rw [course, course, closing]; rfl)
    case h_2 => cases stepped

end Kept

variable {config : PersistenceWorkerConfig} {driver : D} {initialImage image : RestoreImage}

theorem Flow.started (owned : image.application = application)
    (stored : through driver application = some image.throughTurnSequence) :
    Flow sha256 through application (.started config driver image) :=
  ⟨owned, rfl, rfl, .nil, rfl, stored, nofun, [], .nil, rfl, .nil, nofun⟩

theorem loadDriver_eq_some (law : LawfulDriver execute through) {loaded : D}
    (done : loadDriver execute driver application = (.ok (some image), loaded)) :
    image.application = application ∧
      through loaded application = some image.throughTurnSequence := by
  unfold loadDriver at done
  split at done
  case h_1 found after answered =>
    split at done
    case isTrue => cases done
    case isFalse owned =>
      cases done
      have stored := law.loaded driver _ image (congrArg Prod.fst answered)
      have moves := law.moves driver (.load ⟨application, none⟩)
      rw [answered] at moves
      exact ⟨not_not.mp owned, (congrFun moves application).trans stored⟩
  all_goals cases done

theorem initializeDriver_eq_ok (law : LawfulDriver execute through) {initialized : D}
    (done : initializeDriver execute driver initialImage = (.ok image, initialized)) :
    image = initialImage ∧ through initialized initialImage.application =
      some initialImage.throughTurnSequence := by
  unfold initializeDriver at done
  split at done
  case h_1 ack after answered =>
    cases done
    have moves := law.moves driver (.initializeImage initialImage)
    rw [answered] at moves
    refine ⟨rfl, (congrFun moves _).trans ?_⟩
    rw [← law.initialized driver initialImage ack (congrArg Prod.fst answered)]
    exact Function.update_self _ _ _
  all_goals cases done

theorem Flow.start (law : LawfulDriver execute through)
    (started : start execute config driver initialImage = .ok system) :
    Flow sha256 through initialImage.application system := by
  unfold System.start startDriver at started
  split at started
  case h_1 => cases started
  case h_2 =>
    split at started
    case h_1 image after done =>
      cases started
      split at done
      case h_1 loaded =>
        cases done
        rcases loadDriver_eq_some law loaded with ⟨owned, stored⟩
        exact .started owned stored
      case h_2 =>
        rcases initializeDriver_eq_ok law done with ⟨rfl, stored⟩
        exact .started rfl stored
      case h_3 => cases done
    case h_2 => cases started

variable (sha256) in
/-- Ordered checkpoints that contain every accepted turn exactly once. -/
structure Checkpointed (system : System D) : Prop where
  /-- The acknowledged commits, in their order, are the accepted turns up to the durable one,
  in the order of their numbers, and no turn is split. -/
  ordered : ∃ groups,
    List.Forall₂ (CheckpointOf sha256) system.history.committed groups ∧
    groups.flatten = system.history.accepted.filter
      (fun turn => turn.turnSequence ≤ system.shared.durableTurn) ∧
    groups.flatten.Pairwise fun earlier later => earlier.turnSequence < later.turnSequence
  bounded : system.shared.admission.pending.length + system.shared.admission.reservations ≤
    system.shared.capacity
  marked : ∀ after batch ack, system.worker.phase = .acknowledged after batch ack →
    (system.shared.markDurable ack.epoch ack.throughTurnSequence).1 = .ok ()
  barrier : ∀ ack, system.reply = some (.barrier (.ok ack)) →
    ∀ turn ∈ system.history.accepted, turn.turnSequence ≤ system.shared.durableTurn

theorem Flow.filter_accepted (flow : Flow sha256 through application system)
    {durable : List AuthorityTurn}
    (accepted : system.history.accepted = durable ++ system.undelivered)
    (below : ∀ turn ∈ durable, turn.turnSequence ≤ system.shared.durableTurn) :
    system.history.accepted.filter
      (fun turn => turn.turnSequence ≤ system.shared.durableTurn) = durable := by
  have above : ∀ turn ∈ system.undelivered, ¬ turn.turnSequence ≤ system.shared.durableTurn := by
    intro turn member
    have listed : turn.turnSequence ∈ system.shared.admission.pending :=
      flow.admitted ▸ mem_map_of_mem member
    exact Nat.not_le.mpr (flow.numbered.lt_of_mem listed)
  rw [accepted, filter_append, filter_eq_self.mpr, filter_eq_nil_iff.mpr, append_nil]
  · simpa using above
  · simpa using below

theorem Flow.checkpointed (flow : Flow sha256 through application system)
    (ok : Disciplined system) : Checkpointed sha256 system := by
  rcases flow.recorded with ⟨groups, committed, accepted, ordered, durable⟩
  refine ⟨⟨groups, committed, (flow.filter_accepted accepted durable).symm, ordered⟩, ?_, ?_, ?_⟩
  · rw [ok.slots.held]
    exact ok.slots.bounded
  · intro after batch ack phase
    rw [flow.markDurable_eq (by rw [phase]; rfl)]
  · intro ack answered
    rw [accepted, ok.control.answered ack answered, append_nil]
    exact durable

/-- In every interleaving of callers with the worker, over a driver that may refuse any command,
in which no turn is enqueued after the numbers are used up and no other application is activated
or reset, checkpoints are ordered and contain every accepted turn exactly once. -/
theorem checkpointed_of_regular_run (law : LawfulDriver execute through)
    (started : start execute config driver initialImage = .ok system)
    (steps : ReflTransGen (System.RegularSteps sha256 config execute) system next) :
    Checkpointed sha256 next := by
  have invariant : Flow sha256 through initialImage.application next ∧ Disciplined next := by
    induction steps with
    | refl => exact ⟨.start law started, .start started⟩
    | tail _ step ih =>
      rcases step with ⟨_, regular, stepped⟩
      exact ⟨ih.1.step ih.2 law regular stepped, ih.2.step stepped⟩
  exact invariant.1.checkpointed invariant.2

end Steps

/-- One turn goes from its reservation into an acknowledged checkpoint. -/
theorem checkpointed_narrow_run :
    ∃ next, ReflTransGen (System.RegularSteps zeroHash narrowConfig
        (execute zeroHash)) narrowSystem next ∧
      next.history.committed.length = 1 ∧ next.shared.durableTurn = 1 ∧
      Checkpointed zeroHash next := by
  have steps : ReflTransGen (System.RegularSteps zeroHash narrowConfig
      (execute zeroHash)) narrowSystem _ :=
    .head ⟨.tryReserveTurn, trivial, rfl⟩ <|
    .head ⟨.enqueue (idleTurn 1), .inl (by decide), rfl⟩ <|
    .head ⟨.receive, trivial, rfl⟩ <|
    .head ⟨.finishCollecting, trivial, rfl⟩ <|
    .head ⟨.flush, trivial, rfl⟩ <|
    .single ⟨.markDurable, trivial, rfl⟩
  exact ⟨_, steps, rfl, rfl, checkpointed_of_regular_run InMemory.lawfulDriver start_narrow steps⟩

/-- The largest turn number. -/
def lastTurn : UInt64 := 0xFFFFFFFFFFFFFFFF

/-- An activation that uses up the turn numbers. -/
def finalActivation : ActivationBatch :=
  { sampleActivation [] [] with throughTurnSequence := lastTurn }

/-- Another application in the same store. -/
def otherApplication : ApplicationIdentity := ⟨"mail", "state", "desk"⟩

/-- An activation of the other application. -/
def otherActivation : ActivationBatch :=
  { sampleActivation [] [] with application := otherApplication }

/-- A store with the other application in it. -/
def sharedStore : InMemoryDriver :=
  empty.withImage otherApplication (.empty otherApplication 1 (Digest.ofByte 7))

/-- The narrow coordinator over the shared store. -/
def sharedSystem : System InMemoryDriver :=
  .started narrowConfig (sharedStore.withImage sampleApplication blankImage) blankImage

theorem start_shared :
    start (execute zeroHash) narrowConfig sharedStore blankImage = .ok sharedSystem := by
  rfl

theorem irregular_runs_lose_turns :
    (∃ next, ReflTransGen (System.Steps zeroHash narrowConfig
        (execute zeroHash)) narrowSystem next ∧
      next.shared.durableTurn = lastTurn ∧ next.history.accepted = [idleTurn lastTurn] ∧
      next.history.committed = [] ∧ ¬ Checkpointed zeroHash next) ∧
    (start (execute zeroHash) narrowConfig sharedStore blankImage = .ok sharedSystem ∧
      ∃ next, ReflTransGen (System.Steps zeroHash narrowConfig
        (execute zeroHash)) sharedSystem next ∧
      next.shared.durableTurn = 0 ∧ next.history.accepted = [idleTurn 1] ∧
      next.history.committed.length = 1 ∧ ¬ Checkpointed zeroHash next) := by
  have used_up : ReflTransGen (System.Steps zeroHash narrowConfig
      (execute zeroHash)) narrowSystem _ :=
    .head ⟨.requestControl (.activate finalActivation), rfl⟩ <|
    .head ⟨.reservationsDrained, rfl⟩ <| .head ⟨.sendControl, rfl⟩ <| .head ⟨.receive, rfl⟩ <|
    .head ⟨.flush, rfl⟩ <| .head ⟨.handle, rfl⟩ <| .head ⟨.finishControl, rfl⟩ <|
    .head ⟨.tryReserveTurn, rfl⟩ <| .single ⟨.enqueue (idleTurn lastTurn), rfl⟩
  have mixed_up : ReflTransGen (System.Steps zeroHash narrowConfig
      (execute zeroHash)) sharedSystem _ :=
    .head ⟨.tryReserveTurn, rfl⟩ <| .head ⟨.enqueue (idleTurn 1), rfl⟩ <|
    .head ⟨.receive, rfl⟩ <| .head ⟨.finishCollecting, rfl⟩ <| .head ⟨.flush, rfl⟩ <|
    .head ⟨.markDurable, rfl⟩ <| .head ⟨.storeArtifact, rfl⟩ <|
    .head ⟨.requestControl (.activate otherActivation), rfl⟩ <|
    .head ⟨.reservationsDrained, rfl⟩ <| .head ⟨.sendControl, rfl⟩ <| .head ⟨.receive, rfl⟩ <|
    .head ⟨.flush, rfl⟩ <| .single ⟨.handle, rfl⟩
  refine ⟨⟨_, used_up, rfl, rfl, rfl, fun checkpointed => ?_⟩,
    start_shared, _, mixed_up, rfl, rfl, rfl, fun checkpointed => ?_⟩
  · rcases checkpointed.ordered with ⟨groups, committed, accepted, _⟩
    cases committed
    exact absurd accepted (by decide)
  · rcases checkpointed.ordered with ⟨groups, committed, accepted, _⟩
    cases committed with
    | cons holds rest =>
      cases rest
      have empty := accepted.trans (show _ = ([] : List AuthorityTurn) by decide)
      rw [flatten_singleton] at empty
      subst empty
      cases holds.first

end BoonCircuit.Persistence.Coordinator
