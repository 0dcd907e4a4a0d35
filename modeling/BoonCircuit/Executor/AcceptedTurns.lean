import BoonCircuit.Executor.Routes

/-!
# Runs of accepted turns

Events and results that are accepted, in any order and with any reactions to them, lead
from a settled machine to a settled one.
-/

namespace BoonCircuit.Executor

open Lib Checks Action Mutation

variable {V S : Type} [RuntimeValue V]

/-- What a host hands to a machine, with the reaction of the program to it. -/
inductive TurnInput (V S : Type) [RuntimeValue V] where
  | event (event : SourceEvent) (reaction : Reaction V S)
  | result (callId : TransientEffectCallId) (result : EffectResult V)
      (reaction : OutcomeReaction V S)

def MachineInstance.turn (plan : EffectPlan V S) (limit : Option UInt64)
    (machine : MachineInstance V S) : TurnInput V S → Except Error Unit × MachineInstance V S
  | .event event reaction => applyEvent plan.toPlan limit event reaction machine
  | .result callId result reaction =>
    deliverEffectResult plan limit callId result reaction machine

variable {plan : EffectPlan V S} {limit : Option UInt64} {machine next : MachineInstance V S}
  {mutations : List (Mutation V S)}

theorem settled_of_guardedTurn {doing : String} {body : Step V S Unit}
    (holds : wp body (fun _ => True) (fun _ => InTurn machine) (machine.beginTurn limit))
    (done : guardedTurn plan.toPlan doing limit body machine = (.ok (), next)) : next.Settled := by
  unfold guardedTurn at done
  unfold wp at holds
  rcases ran : exec body (machine.beginTurn limit) with ⟨_ | _, last⟩
  · rw [ran] at done
    dsimp only at done
    split at done <;> cases done
  · rw [ran] at done holds
    cases done
    exact holds.settled

theorem wp_reaction (settled : machine.Settled) :
    wp (mutations.forM (apply plan.toPlan)) (fun _ => True) (fun _ => InTurn machine)
      (machine.beginTurn limit) := by
  unfold wp
  rw [exec_forM_apply]
  rcases ran : runTurn plan.toPlan mutations (machine.beginTurn limit) with ⟨_ | _, _⟩
  · trivial
  · exact settled.inTurn_runTurn ran

theorem settled_of_applyEvent {event : SourceEvent} {reaction : Reaction V S}
    (settled : machine.Settled)
    (accepted : applyEvent plan.toPlan limit event reaction machine = (.ok (), next)) :
    next.Settled := by
  refine settled_of_guardedTurn ?_ accepted
  unfold eventTurn modifyMachine
  simp only [wp_bind, wp_get, wp_attempt, implies_true, and_true]
  intro _ _
  apply (wp_reaction settled).weaken
  intro _ _ inTurn
  simp only [wp_bind, wp_get, wp_attempt, wp_modify, implies_true, and_true]
  intro _ _ _ _
  apply wp.mono (wp_commitTransientEffects (inTurn.count _ _)) fun _ _ => trivial
  intro _ _ committed
  rw [wp_attempt]
  exact ⟨fun _ _ => committed.1.1, fun _ _ => trivial⟩

theorem settled_of_deliverEffectResult {callId : TransientEffectCallId} {result : EffectResult V}
    {reaction : OutcomeReaction V S} (settled : machine.Settled)
    (accepted : deliverEffectResult plan limit callId result reaction machine = (.ok (), next)) :
    next.Settled := by
  unfold deliverEffectResult at accepted
  split at accepted
  · cases accepted
  next checked =>
  split at accepted
  · cases accepted
  refine settled_of_guardedTurn ?_ accepted
  obtain ⟨launch, known, _⟩ :=
    MachineInstance.pendingCall_eq_ok (EffectPlan.pendingCall_of_checkResult checked)
  have older := settled.numbered.pending (BTreeMap.mem_iff_exists.mpr ⟨_, known⟩) launch
  unfold deliveryTurn modifyMachine
  rw [wp_bind]
  apply (wp_reaction settled).weaken
  intro _ _ inTurn
  simp only [wp_bind, wp_get, wp_attempt, implies_true, and_true]
  intro _ _
  apply wp.mono (wp_settleCall inTurn older known) fun _ _ => trivial
  rintro _ _ ⟨inTurn, _⟩
  rw [wp_bind]
  apply wp.mono (wp_commitTransientEffects inTurn) fun _ _ => trivial
  intro _ _ committed
  simp only [wp_bind, wp_modify, wp_get, wp_attempt, implies_true, and_true]
  exact fun _ _ => committed.1.1.count _ _

/-- In every run of accepted turns the machine stays settled: lists, orders and partitions fit
together, touched fields belong to rows, and the next call gets a number no pending call has. -/
theorem settled_of_accepted_run (settled : machine.Settled)
    (run : Relation.ReflTransGen
      (fun before after => ∃ input : TurnInput V S, before.turn plan limit input = (.ok (), after))
      machine next) : next.Settled := by
  induction run with
  | refl => exact settled
  | tail _ step ih =>
    obtain ⟨_ | _, accepted⟩ := step
    · exact settled_of_applyEvent ih accepted
    · exact settled_of_deliverEffectResult ih accepted

/-- The plan of two lists whose rows call an effect. -/
def callingPlan : EffectPlan Nat Unit :=
  { rowPlan with toPlan := routedPlan }

/-- An event to which the program appends two rows, the second of which calls an effect. -/
def callingEvent : TurnInput Nat Unit :=
  .event (rootEvent 1) (reactWith [.appendRow 2 ∅ [] none [] 0, .appendRow 1 ∅ [] none [] 0,
    .stageEffect ⟨⟨1, some ⟨1, 1, 1⟩⟩, 1, 1, ⟨0, [⟨1, 1, 1⟩]⟩, none, some 5⟩])

def calledMachine : MachineInstance Nat Unit :=
  ((routedMachine twoLists).turn callingPlan none callingEvent).2

/-- The result of the call, which is written to its row before another row follows. -/
def answer : TurnInput Nat Unit :=
  .result ⟨1, 1⟩ (.single 9) ⟨[.writeRowField ⟨1, 1, 1⟩ 0 9 true], [.appendRow 1 ∅ [] none [] 0],
    by simp [Evaluated], [9]⟩

theorem settled_of_event_and_result :
    ((routedMachine twoLists).turn callingPlan none callingEvent).1 = .ok () ∧
      (calledMachine.turn callingPlan none answer).1 = .ok () ∧
      (calledMachine.turn callingPlan none answer).2.Settled := by
  have asked : (routedMachine twoLists).turn callingPlan none callingEvent =
      (.ok (), calledMachine) := Prod.ext rfl rfl
  have answered : calledMachine.turn callingPlan none answer =
      (.ok (), (calledMachine.turn callingPlan none answer).2) := Prod.ext rfl rfl
  rw [asked, answered]
  exact ⟨rfl, rfl, settled_of_accepted_run settled_twoLists
    (.tail (.single ⟨callingEvent, asked⟩) ⟨answer, answered⟩)⟩

end BoonCircuit.Executor
