import BoonCircuit.Executor.RollbackSpec

/-!
# Failed turns

A turn that is rolled back is invisible exactly when three things hold: the
activations before the turn belonged to existing rows, no field of a missing row
was written, and the last word of the logs on every pending call is the state the
call had before the turn.  The logs of pending calls are read from their front, so
the last of several entries on one call wins, and not the first.
-/

namespace BoonCircuit.Executor

open Lib Checks Mutation Std.ExtTreeMap MachineInstance Action BTreeMap UndoLogs

variable {V S : Type} [RuntimeValue V]
  {plan : Plan V S} {machine : MachineInstance V S} {session : Session V S}
  {mutations : List (Mutation V S)} {limit : Option UInt64}
  {pending : BTreeMap TransientEffectCallId (PendingTransientEffect S)} {work : Work V S}

/-- A machine between turns. -/
structure MachineInstance.Settled (machine : MachineInstance V S) : Prop where
  wellFormed : machine.WellFormed
  numbered : Numbered machine.nextTransientEffectSequence machine []

theorem MachineInstance.Settled.inTurn (settled : machine.Settled) :
    InTurn machine (machine.beginTurn limit) where
  undoable := {
    rewinds := by
      apply rewinds_nil
      have blank : (machine.beginTurn limit).work.logs.covered = Covered.nothing := by
        ext other <;> simp [beginTurn, Work.begin, Work.logs, covered, structural, Covered.nothing]
      rw [blank]
      exact fun _ similar => similar
    listIds := fun _ => .rfl
    revised := fun _ member => absurd member not_mem_empty
    revisions := records_empty
    activations := records_empty
    results := records_empty
    pending := fun _ _ => rfl
    numbered := settled.numbered
    attached := fun _ found => ⟨⟨_, found, rfl⟩, fun _ _ => id⟩ }
  wellFormed := settled.wellFormed

theorem MachineInstance.Settled.inTurn_runTurn (settled : machine.Settled) {final : Session V S}
    (succeeds : runTurn plan mutations (machine.beginTurn limit) = (.ok (), final)) :
    InTurn machine final := by
  have placed : ¬Strays plan mutations (machine.beginTurn limit) := by
    intro strays
    obtain ⟨_, row, _, failed, _⟩ := stranded_runTurn strays
    rw [succeeds] at failed
    cases failed
  obtain ⟨_, ends⟩ := fallen_runTurn settled.inTurn placed
  rw [succeeds] at ends
  exact ends rfl

theorem InTurn.settled (inTurn : InTurn machine session) : session.machine.Settled where
  wellFormed := inTurn.wellFormed
  numbered := {
    floor_le := UInt64.le_refl _
    late := List.forall_mem_nil _
    pending := inTurn.undoable.numbered.pending
    requested := List.forall_mem_nil _
    distinct := .nil
    known := List.forall_mem_nil _ }

theorem MachineInstance.Settled.runTurn (settled : machine.Settled)
    (succeeds : (Mutation.runTurn plan mutations (machine.beginTurn limit)).1 = .ok ()) :
    (Mutation.runTurn plan mutations (machine.beginTurn limit)).2.machine.Settled :=
  (settled.inTurn_runTurn (Prod.ext succeeds rfl)).settled

/-- A list without rows. -/
def ListState.empty : ListState V :=
  ⟨∅, .empty, ∅, 1, 0, ∅, 1⟩

omit [RuntimeValue V] in
theorem ListState.wellFormed_empty {listId : ListId} :
    (ListState.empty : ListState V).WellFormed listId where
  mem_order := iff_of_false List.not_mem_nil not_mem_empty
  nodup := .nil
  owned found := by cases found
  partitions := {
    order := fun _ => rfl
    origin := iff_of_false (fun indexed => by cases indexed) fun filed => List.not_mem_nil filed.1
    inhabited := fun found => by cases found }

theorem MachineInstance.Settled.of_empty_lists
    (lists : ∀ {id : ListId} {list : ListState V}, machine.lists[id]? = some list → list = .empty)
    (touched : machine.touchedRowFields = ∅)
    (numbered : ∀ {call : TransientEffectCallId}, call ∈ machine.pendingTransientEffects →
      call.sequence < machine.nextTransientEffectSequence) : machine.Settled where
  wellFormed := {
    lists := fun found => lists found ▸ ListState.wellFormed_empty
    touched := fun member => by
      rw [touched] at member
      exact absurd member Std.ExtTreeSet.not_mem_empty }
  numbered := {
    floor_le := UInt64.le_refl _
    late := List.forall_mem_nil _
    pending := fun member _ => numbered member
    requested := List.forall_mem_nil _
    distinct := .nil
    known := List.forall_mem_nil _ }

theorem getElem?_restorePending {call : TransientEffectCallId} :
    (restorePending work pending)[call]? = (work.logs.lastWord call).getD pending[call]? := by
  unfold restorePending lastWord
  rw [getElem?_foldl_insert, getElem?_foldl_insert, getElem?_foldl_erase]
  change (lastWritten work.logs.updated call).or ((lastWritten work.logs.completed call).or
    (if call ∈ work.logs.committed then none else pending[call]?)) = _
  cases lastWritten work.logs.updated call with
  | some => rfl
  | none =>
    cases lastWritten work.logs.completed call with
    | some => rfl
    | none => by_cases committed : call ∈ work.logs.committed <;> simp [committed]

/-- Pending calls are restored exactly when the last word on each is its earlier state. -/
theorem Undoable.restorePending_eq_iff {current : MachineInstance V S}
    (undoable : Undoable machine current work.logs) :
    restorePending work current.pendingTransientEffects = machine.pendingTransientEffects ↔
      ∀ call previous, work.logs.lastWord call = some previous →
        previous = machine.pendingTransientEffects[call]? := by
  constructor
  · intro same call previous said
    rw [← same, getElem?_restorePending, said, Option.getD_some]
  · intro recalled
    apply ext_getElem?
    intro call
    rw [getElem?_restorePending]
    cases said : work.logs.lastWord call with
    | none => exact undoable.pending call said
    | some previous => exact recalled call previous said

variable (plan) in
/-- A note for a row that does not exist makes the rollback fail before it restores more than
the pending calls. -/
theorem Stranded.rollbackTurn_fails {row : RowId} (stranded : Stranded row session) :
    wp (rollbackTurn plan) (fun after => after.machine = session.recalled) (fun _ _ => False)
      session := by
  obtain ⟨⟨earlier, field, value, touchedField, touchedList, log⟩, missing⟩ := stranded
  have stuck : exec (undoAuthority (.rowField row field value touchedField touchedList))
      session.recalled =
        (.error (.evaluation ("rollback cannot find row " ++ row.text)), session.recalled) := by
    have absent : session.recalled.row? row = none := missing
    unfold undoAuthority
    rw [exec_get_bind, absent, okOr, exec_attempt_bind]
  have replayed : replay (fun entry => exec (undoAuthority entry)) (earlier ++ _) _ = _ :=
    replay_concat_of_error stuck
  rw [← log] at replayed
  have failed : exec replayUndo ⟨session.machine, { session.work with enforceWorkLimit := false }⟩ =
      _ := exec_replayUndo replayed
  unfold rollbackTurn modifyWork
  rw [wp_bind, wp_modify, wp_bind, wp, failed]

/-- The condition under which a rollback leaves no trace of a turn. -/
structure Restorable (plan : Plan V S) (machine : MachineInstance V S) (limit : Option UInt64)
    (mutations : List (Mutation V S)) : Prop where
  /-- Activations before the turn are the program's or those of existing rows. -/
  attached : ∀ consumer ∈ machine.effectActivations, ∀ row, consumer.row = some row →
    (machine.row? row).isSome
  /-- No field of a missing row is written. -/
  placed : ¬Strays plan mutations (machine.beginTurn limit)
  /-- The last entry on a pending call holds the state the call had before the turn. -/
  recalled : ∀ call previous,
    (runTurn plan mutations (machine.beginTurn limit)).2.work.logs.lastWord call =
      some previous → previous = machine.pendingTransientEffects[call]?

theorem MachineInstance.attachedActivations_eq_iff :
    machine.attachedActivations = machine.effectActivations ↔
      ∀ consumer ∈ machine.effectActivations, ∀ row, consumer.row = some row →
        (machine.row? row).isSome := by
  unfold attachedActivations
  constructor
  · intro same consumer member row owns
    obtain ⟨activation, found⟩ := mem_iff_exists.mp member
    rw [← same, getElem?_filter_eq_some_iff, owns] at found
    exact found.1
  · intro attached
    apply ext_getElem?
    intro consumer
    rw [getElem?_filter fun consumer : EffectConsumer => consumer.row.all fun row =>
      (machine.row? row).isSome]
    split
    · rfl
    · next detached =>
        cases found : machine.effectActivations[consumer]? with
        | none => rfl
        | some activation =>
          refine absurd ?_ detached
          rw [Option.all_eq_true]
          exact attached consumer (mem_iff_exists.mpr ⟨activation, found⟩)

theorem TurnState.replace_eq_iff {state : TurnState V S}
    {activations : BTreeMap EffectConsumer EffectActivation} :
    { state.withPending pending with effectActivations := activations } = state ↔
      activations = state.effectActivations ∧ pending = state.pendingTransientEffects := by
  constructor
  · intro same
    exact ⟨congrArg TurnState.effectActivations same,
      congrArg TurnState.pendingTransientEffects same⟩
  · rintro ⟨rfl, rfl⟩
    rfl

/-- A failed turn is invisible exactly when it was restorable. -/
theorem rollbackTurn_restores_iff (settled : machine.Settled) :
    (∃ final, exec (rollbackTurn plan)
        (runTurn plan mutations (machine.beginTurn limit)).2 = (.ok (), final) ∧
      final.machine.turnState = machine.turnState) ↔ Restorable plan machine limit mutations := by
  by_cases placed : Strays plan mutations (machine.beginTurn limit)
  · refine iff_of_false ?_ fun restorable => restorable.placed placed
    rintro ⟨final, rolledBack, _⟩
    obtain ⟨_, row, last, failed, stranded⟩ := stranded_runTurn placed
    obtain ⟨_, _, stuck, _⟩ := (stranded.rollbackTurn_fails plan).eq_error
    rw [failed, stuck] at rolledBack
    cases rolledBack
  · obtain ⟨fallen, _⟩ := fallen_runTurn settled.inTurn placed
    generalize ended : (runTurn plan mutations (machine.beginTurn limit)).2 = last at *
    obtain ⟨_, final, rolledBack, restored, state, rebound⟩ :=
      (wp_rollbackTurn plan fallen settled.wellFormed).eq_ok
    have reached : final.machine.turnState =
        { machine.turnState.withPending
            (restorePending last.work last.machine.pendingTransientEffects) with
          effectActivations := machine.attachedActivations } := by
      rw [rebound, ← state, ← restored.turnState_rebound plan]
      rfl
    have invisible : final.machine.turnState = machine.turnState ↔
        Restorable plan machine limit mutations := by
      rw [reached, TurnState.replace_eq_iff]
      change machine.attachedActivations = machine.effectActivations ∧
        restorePending last.work last.machine.pendingTransientEffects =
          machine.pendingTransientEffects ↔ _
      rw [attachedActivations_eq_iff, fallen.undoable.restorePending_eq_iff]
      constructor
      · rintro ⟨attached, recalled⟩
        exact ⟨attached, placed, ended ▸ recalled⟩
      · intro restorable
        exact ⟨restorable.attached, ended ▸ restorable.recalled⟩
    rw [← invisible]
    constructor
    · rintro ⟨_, same, holds⟩
      rw [rolledBack] at same
      cases same
      exact holds
    · exact fun holds => ⟨final, rolledBack, holds⟩

section Traces

/-- A plan without sources, lists and effects. -/
def barePlan : Plan Nat Unit where
  programRevision := 1
  requireMonotonicSequences := true
  routes := ∅
  size_routes_lt := by decide
  listSlots := []
  durableLists := ∅
  durableRowFields := fun _ _ => false
  authorityFields := fun _ => []
  effects := []
  valueCollectionAuthorities := fun _ => []
  semanticForInvocation := fun _ _ => .ok ()
  semanticAccept := fun _ _ _ _ => .ok ()
  storedOutcome := fun _ value => .ok value
  outcomeTag := fun _ => none

/-- A machine that waits for results of some calls. -/
def waiting (pending : List (TransientEffectCallId × PendingTransientEffect Unit)) :
    MachineInstance Nat Unit where
  rootStates := ∅
  touchedRootStates := ∅
  lists := ∅
  touchedLists := ∅
  touchedRowFields := ∅
  collectionAuthorities := ∅
  collectionProducers := ∅
  effectActivations := ∅
  transientEffectResults := ∅
  pendingTransientEffects := pending.foldl (fun calls call => calls.insert call.1 call.2) ∅
  rootSourceBindings := ∅
  nextBindingId := 1
  lastSequence := none
  turnSequence := 0
  launchEpoch := 1
  transientEffectScope := 0
  nextTransientEffectSequence := 1

/-- A stream call that expects its result of the given number next. -/
def streamCall (nextResultSequence : UInt64) : PendingTransientEffect Unit where
  invocationId := 1
  effectId := 1
  owner := ⟨0, []⟩
  target := none
  executionScope := 0
  delivery := .stream 1 1 [] []
  semantic := ()
  nextResultSequence := nextResultSequence
  availableCredits := 1

/-- A call that is updated twice keeps its first update.  A write to a missing row makes the
rollback itself fail. -/
theorem rollbackTurn_leaves_traces :
    (exec (rollbackTurn barePlan) (runTurn barePlan
        [.updateEffect ⟨1, 0⟩ () 1 1, .updateEffect ⟨1, 0⟩ () 2 1, .fail (.evaluation "stop")]
        ((waiting [(⟨1, 0⟩, streamCall 0)]).beginTurn none)).2
      ).2.machine.pendingTransientEffects[(⟨1, 0⟩ : TransientEffectCallId)]? = some (streamCall 1) ∧
    (exec (rollbackTurn barePlan) (runTurn barePlan
        [.writeRowField ⟨7, 1, 1⟩ 0 5 true] ((waiting []).beginTurn none)).2).1 =
      .error (.evaluation "rollback cannot find row 7:1:1") :=
  ⟨rfl, rfl⟩

/-- A plan with one list and one effect whose calls have a single result. -/
def listPlan : Plan Nat Unit :=
  { barePlan with
    listSlots := [⟨1, none, none⟩]
    effects := [⟨1, .single⟩] }

/-- A machine with one list, which has no rows. -/
def emptyList : MachineInstance Nat Unit :=
  { waiting [] with lists := (∅ : BTreeMap ListId (ListState Nat)).insert 1 .empty }

theorem settled_emptyList : emptyList.Settled := by
  apply Settled.of_empty_lists _ rfl fun member => absurd member not_mem_empty
  intro id list found
  rcases getElem?_insert_eq_some_iff.mp found with ⟨_, rfl⟩ | ⟨_, found⟩
  · rfl
  · cases found

/-- A row is appended and calls the effect. -/
def rowCall : MachineInstance Nat Unit :=
  (runTurn listPlan [.appendRow 1 ∅ [] none [] 0,
    .stageEffect ⟨⟨1, some ⟨1, 1, 1⟩⟩, 1, 1, ⟨0, [⟨1, 1, 1⟩]⟩, none, some 5⟩,
    .commitEffects] (emptyList.beginTurn none)).2.machine

theorem settled_rowCall : rowCall.Settled :=
  settled_emptyList.runTurn rfl

/-- A failed turn writes a field of a row that waits for a result, and appends a row. -/
theorem rollbackTurn_restores_row :
    ∃ final, exec (rollbackTurn listPlan) (runTurn listPlan
        [.writeRowField ⟨1, 1, 1⟩ 0 5 true, .appendRow 1 ∅ [] none [] 0,
          .fail (.evaluation "stop")] (rowCall.beginTurn none)).2 = (.ok (), final) ∧
      final.machine.turnState = rowCall.turnState := by
  refine (rollbackTurn_restores_iff settled_rowCall).mpr ⟨?_, ?_, ?_⟩
  · intro consumer member row owns
    rcases BTreeMap.mem_insert.mp member with rfl | member
    · cases owns
      rfl
    · exact absurd member not_mem_empty
  · intro strays
    rcases (reaches_cons_iff rfl).mp strays with ⟨missing, _⟩ | strays
    · cases missing
    · exact not_strays (by simp [Stray]) strays
  · intro call previous said
    cases said

end Traces

end BoonCircuit.Executor
