import BoonCircuit.Executor.ListSteps

/-!
# Whole turns

Every mutation leaves a turn that can be taken back, with one exception: a write
to a field of a row that does not exist notes an entry for that row before it
fails.
-/

namespace BoonCircuit.Executor

open Lib Checks Action MachineInstance ListState BTreeMap

variable {V S : Type} [RuntimeValue V]

section Steps

variable {initial machine : MachineInstance V S} {before : Session V S} {logs : UndoLogs V S}
  {row : RowId} {list : ListState V} {content : Row V} {patch : SourceOrderPatch}
  {touchedFields : List FieldId} {plan : Plan V S} {cost : UInt64}

/-- No pending call belongs to the row. -/
def MachineInstance.Unowned (machine : MachineInstance V S) (row : RowId) : Prop :=
  ∀ ⦃call : TransientEffectCallId⦄ ⦃pending : PendingTransientEffect S⦄,
    machine.pendingTransientEffects[call]? = some pending → row ∉ pending.owner.ancestry

/-- The machine without a row. -/
def MachineInstance.withoutRow (machine : MachineInstance V S) (row : RowId) (list : ListState V)
    (content : Row V) (patch : SourceOrderPatch) : MachineInstance V S :=
  { machine.withList row.list ((patch.applyForward list).dropRow row content) with
    touchedRowFields := machine.touchedRowFields.filter fun entry => entry.row ≠ row }

theorem Undoable.removeRow (undoable : Undoable initial machine logs)
    (wellFormed : machine.WellFormed) (found : machine.lists[row.list]? = some list)
    (rowFound : list.rows[row]? = some content) (prepared : patch.Prepared list)
    (touches : ∀ field, field ∈ touchedFields ↔ ⟨row, field⟩ ∈ machine.touchedRowFields)
    (unowned : machine.Unowned row) :
    Undoable initial (machine.withoutRow row list content patch)
      (logs.note (.removeRow row content patch list.nextKey
        (machine.touchedLists.contains row.list) touchedFields)) := by
  have revision : ((patch.applyForward list).dropRow row content).revision = list.revision := by
    rw [dropRow_eq]
    rfl
  have commits : patch.Commits list ((patch.applyForward list).dropRow row content) := by
    rw [dropRow_eq]
    exact ⟨rfl, rfl, rfl⟩
  have rows : ((patch.applyForward list).dropRow row content).rows = list.rows.erase row :=
    rows_dropRow
  refine undoable.note (fun state similar => ?_) rfl ?_ ?_ ?_
  · exact undo_removeRow wellFormed found rowFound prepared commits rows touches similar
  · exact mem_lists_withList found
  · exact revisionOf_withList found revision
  · intro call pending present other member known
    apply isSome_row?_withList found _ known
    intro _ listed
    rw [rows]
    refine mem_erase.mpr ⟨?_, listed⟩
    rintro rfl
    exact unowned present member

theorem MachineInstance.WellFormed.withoutRow (wellFormed : machine.WellFormed)
    (found : machine.lists[row.list]? = some list) (rowFound : list.rows[row]? = some content)
    (order : (patch.applyForward list).order.rows = list.order.rows.erase row) :
    (machine.withoutRow row list content patch).WellFormed := by
  refine wellFormed.withList found
    ((wellFormed.lists found).remove rowFound order) fun entry kept => ?_
  obtain ⟨known, apart⟩ := BTreeSet.mem_filter.mp kept
  refine ⟨known, fun _ member => ?_⟩
  rw [rows_dropRow]
  exact mem_erase.mpr ⟨by simpa using apart, member⟩

theorem wp_announceRemoval {nextKey : UInt64} {touched retires : Bool}
    (inTurn : InTurn initial before) :
    Stays initial (announceRemoval plan row nextKey touched retires) before := by
  have reported : ∀ delta, Stays initial (pushDelta delta) before :=
    fun _ => ⟨⟨inTurn.undoable, inTurn.wellFormed⟩, rfl⟩
  unfold Stays announceRemoval
  split
  · split
    · exact reported _
    · simp only [wp_bind, wp_get, wp_attempt]
      exact ⟨fun _ _ => reported _, fun _ _ => inTurn.fallen⟩
  · split
    · exact reported _
    · exact ⟨inTurn, rfl⟩

theorem wp_unlinkRow (inTurn : InTurn initial before)
    (found : before.machine.lists[row.list]? = some list)
    (rowFound : list.rows[row]? = some content)
    (unowned : before.machine.Unowned row) :
    Stays initial (unlinkRow plan row list content cost) before := by
  unfold Stays unlinkRow
  rw [wp_bind, wp_get]
  simp only [wp_bind, wp_attempt_of_failed inTurn.fallen, okOr_eq_ok_iff]
  rintro prepared isPrepared patch rfl
  obtain ⟨prepared, order, _⟩ := prepareRemoveOrdered_eq_ok isPrepared
  have touches : ∀ field, field ∈ (before.machine.touchedRowFields.toList.filter fun entry =>
      entry.row == row).map RowField.field ↔ ⟨row, field⟩ ∈ before.machine.touchedRowFields := by
    intro field
    simp only [List.mem_map, List.mem_filter, beq_iff_eq, Std.ExtTreeSet.mem_toList]
    constructor
    · rintro ⟨entry, ⟨member, rfl⟩, rfl⟩
      exact member
    · exact fun member => ⟨⟨row, field⟩, ⟨member, rfl⟩, rfl⟩
  apply (wp_consume inTurn.fallen).weaken
  rintro _ _ ⟨_, rfl, sameLogs⟩
  apply (wp_markListSemanticChange _).bind
  · rintro _ ⟨machine, _⟩ ⟨fallen, marked⟩
    have wellFormed := marked.wellFormed inTurn.wellFormed
    obtain ⟨revise, sameMachine⟩ := marked.machine
    subst sameMachine
    have present : (before.machine.modifyList row.list fun list =>
        { list with revision := revise list.revision }).lists[row.list]? =
          some { list with revision := revise list.revision } := by
      rw [getElem?_modifyList, if_pos rfl, found, Option.map_some]
    have undoable := fallen.undoable.removeRow wellFormed present rowFound
      { prepared with } touches unowned
    have removed := wellFormed.withoutRow present rowFound order
    unfold modifyMachine pushUndo modifyWork
    simp only [wp_bind, wp_modify]
    rw [modify_eq_insert present]
    apply (wp_announceRemoval _).weaken
    · exact fun _ _ kept => ⟨kept.1, kept.2.trans (marked.calls.trans (calls_of_logs sameLogs))⟩
    cases plan.durableLists.contains row.list with
    | false => exact ⟨undoable, removed⟩
    | true =>
      refine ⟨undoable.touchList ⟨row, ?_, rfl⟩, removed.lists, removed.touched⟩
      exact UndoLogs.structural_note.mpr (.inl rfl)
  · refine ⟨?_, inTurn.wellFormed.sound⟩
    rw [sameLogs]
    exact inTurn.undoable

theorem wp_removeRowExact (inTurn : InTurn initial before) :
    wp (removeRowExact plan row cost) (Fallen initial) (fun _ after => InTurn initial after ∧
      Drops (fun _ pending => row ∈ pending.owner.ancestry) before after) before := by
  unfold removeRowExact
  rw [wp_bind, wp_get]
  refine wp.bind (keeps_forM inTurn fun _ _ _ => keeps_deactivateEffectActivation) ?_
  rintro _ session ⟨inTurn, steady⟩
  apply (wp_cancelPendingWhere inTurn).bind
  rintro _ session ⟨inTurn, calm⟩
  have unowned : session.machine.Unowned row := by
    intro call pending present member
    exact (calm.pending.mp present).2 (List.contains_iff_mem.mpr member)
  unfold listOf
  simp only [wp_bind, wp_get, wp_attempt_of_failed inTurn.fallen, okOr_eq_ok_iff]
  intro list found content rowFound
  apply wp.mono (keeps_retireCollectionAuthorities inTurn) fun _ fallen => fallen
  rintro _ after ⟨inTurn, later⟩
  have calls : after.machine.pendingTransientEffects = _ := congrArg Prod.fst later.calls
  have free : after.machine.Unowned row := by
    unfold Unowned
    rw [calls]
    exact unowned
  apply (wp_unlinkRow inTurn (later.lists ▸ found) rowFound free).weaken
  rintro _ final ⟨inTurn, last⟩
  have drops := ((Drops.of_calls steady.calls).trans calm.toDrops).trans
    (Drops.of_calls (last.trans later.calls))
  exact ⟨inTurn, drops.congr (by simp)⟩

/-- A row of the ancestry goes when the given row is removed with the rows below it. -/
def MachineInstance.Removes (machine : MachineInstance V S) (row : RowId) (ancestry : Ancestry) :
    Prop :=
  ∃ content, machine.row? row = some content ∧
    ∃ removed ∈ descendants machine row content.ownerAncestry ++ [row], removed ∈ ancestry

theorem wp_removeRow {cost : RowId → UInt64} (inTurn : InTurn initial before) :
    wp (removeRow plan row cost) (Fallen initial) (fun _ after => InTurn initial after ∧
      CallStep initial (fun pending => ¬before.machine.Removes row pending.owner.ancestry) none
        before after) before := by
  unfold removeRow
  simp only [wp_bind, wp_get, wp_attempt_of_failed inTurn.fallen, okOr_eq_ok_iff]
  intro content found
  -- The rows removed so far tell which calls are left.
  apply wp.mono (wp_forM_done (fun done session => InTurn initial session ∧
    CallStep initial (fun pending => ∀ removed ∈ done, removed ∉ pending.owner.ancestry) none
      before session) ⟨inTurn, by simp [Session.numbers], by simp⟩ ?_) fun _ fallen => fallen
  · rintro _ session ⟨inTurn, step⟩
    apply (wp_removeRowExact inTurn).weaken
    rintro _ after ⟨inTurn, drops⟩
    refine ⟨inTurn, drops.numbers.trans step.numbers, fun _ owned pending => ?_⟩
    rw [drops.pending, step.pending owned, and_assoc]
    simp [Removes, found]
  · rintro done descendant _ _ session ⟨inTurn, step⟩
    rw [wp_bind, wp_get]
    split
    · apply (wp_removeRowExact inTurn).weaken
      rintro _ after ⟨inTurn, drops⟩
      refine ⟨inTurn, drops.numbers.trans step.numbers, fun _ owned pending => ?_⟩
      rw [drops.pending, step.pending owned, and_assoc]
      simp [or_imp, forall_and]
    · next missing =>
      -- Owners of pending calls exist, so no call waits for the missing row.
      refine ⟨inTurn, step.numbers, fun call owned pending => ?_⟩
      rw [step.pending owned]
      simp only [List.mem_append, List.mem_singleton, or_imp, forall_and, forall_eq]
      refine and_congr_right fun waiting => (and_iff_left_of_imp fun free member => missing ?_).symm
      have attached := inTurn.undoable.attached owned.1 ((step.pending owned).mpr ⟨waiting, free⟩)
      obtain ⟨_, known, same⟩ := attached.known
      exact attached.rows _ member (owned.2 known _ (same ▸ member))

end Steps

/-- A write to a row that does not exist, noted for the first time in the turn. -/
def Mutation.Stray (session : Session V S) : Mutation V S → Prop
  | .writeRowField row field _ _ =>
    session.machine.row? row = none ∧ ⟨row, field⟩ ∉ session.work.undoRowFields
  | _ => False

/-- The mutation ends a pending call: it removes a row of the owner or closes the gate. -/
def Mutation.Ends (session : Session V S) (pending : PendingTransientEffect S) :
    Mutation V S → Prop
  | .removeRow row _ => session.machine.Removes row pending.owner.ancestry
  | .stageEffect request => request.Closes session pending
  | _ => False

/-- The call that a mutation asks for. -/
def Mutation.call? (callId : TransientEffectCallId) :
    Mutation V S → Option (TransientEffectInvocation V)
  | .stageEffect request => request.call? callId
  | _ => none

/-- A mutation of the evaluator, which never commits, advances or completes calls. -/
def Mutation.Evaluated : Mutation V S → Prop
  | .commitEffects | .updateEffect .. | .completeEffect _ => False
  | _ => True

/-- The last entry of the undo log is about a row that does not exist. -/
structure Stranded (row : RowId) (session : Session V S) : Prop where
  log : ∃ earlier field value touchedField touchedList, session.work.authorityUndo =
    earlier ++ [.rowField row field value touchedField touchedList]
  missing : session.machine.row? row = none

section Steps

variable {initial : MachineInstance V S} {before : Session V S} (plan : Plan V S)
  {mutation : Mutation V S} {row : RowId} {field : FieldId} {value : V} {α : Type}
  {action : Step V S α}

theorem Stays.discard (stays : Stays initial action before) :
    Stays initial (do let _ ← action) before :=
  wp_bind.mpr stays

theorem Stays.callStep (stays : Stays initial action before) :
    wp action (Fallen initial) (fun _ after => InTurn initial after ∧
      (True → CallStep initial (fun _ => ¬False) none before after)) before := by
  apply stays.weaken
  rintro _ after ⟨inTurn, same⟩
  have drops := Drops.of_calls same
  exact ⟨inTurn, fun _ => ⟨drops.numbers.trans (by simp [Session.numbers]),
    fun _ _ _ => drops.pending⟩⟩

/-- A mutation that is not stray keeps the turn; one of the evaluator spares the calls that it
does not end. -/
theorem Mutation.wp_apply (inTurn : InTurn initial before) (placed : ¬mutation.Stray before) :
    wp (mutation.apply plan) (Fallen initial) (fun _ after => InTurn initial after ∧
      (mutation.Evaluated → CallStep initial (fun pending => ¬mutation.Ends before pending)
        (mutation.call? before.nextCall) before after)) before := by
  have settles : ∀ {action : Step V S Unit} {step : Session V S → Prop},
      Runs initial action before →
      wp action (Fallen initial) (fun _ after => InTurn initial after ∧ (False → step after))
        before :=
    fun runs => runs.weaken fun _ _ inTurn => ⟨inTurn, False.elim⟩
  cases mutation with
  | fail => exact inTurn.fallen
  | writeRootState => exact (keeps_writeRootState inTurn).stays.callStep
  | writeRowField =>
    apply (wp_writeRowField inTurn _).callStep
    by_contra neither
    obtain ⟨missing, fresh⟩ := not_or.mp neither
    exact placed ⟨by simpa using missing, fresh⟩
  | appendRow => exact (wp_appendRow inTurn).discard.callStep
  | removeRow => exact (wp_removeRow inTurn).weaken fun _ _ kept => ⟨kept.1, fun _ => kept.2⟩
  | reorderPartition =>
    apply Stays.callStep
    unfold Stays Mutation.apply listOf
    simp only [wp_bind, wp_get, wp_attempt_of_failed inTurn.fallen, okOr_eq_ok_iff,
      reject_eq_ok_iff]
    intro list found _ whole
    exact wp_setMaterializedPartitionOrder inTurn found (not_not.mp whole)
  | ensureMap => exact (keeps_ensureAuthority inTurn).1.stays.callStep
  | ensureSet => exact (keeps_ensureAuthority inTurn).2.stays.callStep
  | mapUpsert => exact (keeps_submitMapUpsert inTurn).stays.callStep
  | mapRemove => exact (keeps_submitMapRemove inTurn).stays.callStep
  | setAdd => exact (keeps_submitSet inTurn).1.stays.callStep
  | setRemove => exact (keeps_submitSet inTurn).2.stays.callStep
  | retireCollections => exact (keeps_retireCollectionAuthorities inTurn).stays.callStep
  | discardUnattached =>
    exact (keeps_discardUnattachedCollectionAuthorities inTurn).stays.callStep
  | updateProducer => exact (keeps_updateCollectionProducer inTurn).stays.discard.callStep
  | stageEffect =>
    exact (wp_stageEffectInvocation inTurn).weaken fun _ _ kept => ⟨kept.1, fun _ => kept.2⟩
  | deactivateEffect => exact (keeps_deactivateEffectActivation inTurn).stays.callStep
  | setEffectResult => exact ((keeps_transientEffectResult inTurn).1 _).stays.callStep
  | clearEffectResult => exact (keeps_transientEffectResult inTurn).2.stays.callStep
  | commitEffects => exact settles (runs_commitTransientEffects inTurn)
  | updateEffect =>
    apply settles
    unfold Runs Mutation.apply
    simp only [wp_bind, wp_get, wp_attempt_of_failed inTurn.fallen, okOr_eq_ok_iff]
    intro previous found
    apply runs_updateTransientEffect inTurn
    intro pending present
    cases found.symm.trans present
    exact ⟨rfl, fun _ => ⟨rfl, rfl⟩⟩
  | completeEffect => exact settles (runs_completeTransientEffect inTurn)

theorem Stranded.wp_markListSemanticChange {listId : ListId} (stranded : Stranded row before) :
    wp (markListSemanticChange listId) (Stranded row)
      (fun _ after => Stranded row after) before := by
  unfold markListSemanticChange listOf modifyMachine modifyWork
  rw [wp_bind, wp_get]
  split
  · simp only [wp_bind, wp_get, wp_attempt]
    refine ⟨fun revision _ => ⟨fun list _ => ⟨stranded.log, ?_⟩, fun _ _ => stranded⟩,
      fun _ _ => stranded⟩
    have same : ((before.machine.modifyList listId fun list =>
        { list with revision := revision }).row? row).isSome = (before.machine.row? row).isSome :=
      MachineInstance.row?_modifyList fun _ => rfl
    rw [stranded.missing] at same
    exact Option.isNone_iff_eq_none.mp (by simpa using same)
  · exact stranded

theorem Stranded.wp_setRowField (stranded : Stranded row before) :
    wp (setRowField row field value) (Stranded row) (fun _ _ => False) before := by
  unfold setRowField
  rw [wp_bind, wp_get, stranded.missing]
  apply stranded.wp_markListSemanticChange.bind
  intro _ after stranded
  rw [wp_bind, wp_attempt]
  exact ⟨fun _ found => (nomatch found), fun _ _ => stranded⟩

theorem wp_writeRowField_stray {touch : Bool}
    (missing : before.machine.row? row = none) (fresh : ⟨row, field⟩ ∉ before.work.undoRowFields) :
    wp (writeRowField row field value touch) (Stranded row) (fun _ _ => False) before := by
  unfold writeRowField recordRowFieldUndo modifyMachine
  simp only [wp_bind, wp_get, wp_modify, wp_onlyIf, if_neg fresh]
  constructor
  all_goals
    intro _
    apply (Stranded.wp_setRowField _).weaken
    · exact fun _ _ impossible => impossible.elim
    · exact ⟨⟨_, _, _, _, _, rfl⟩, missing⟩

theorem Mutation.wp_apply_stray (stray : mutation.Stray before) :
    wp (mutation.apply plan) (fun after => ∃ row, Stranded row after)
      (fun _ _ => False) before := by
  cases mutation with
  | writeRowField row =>
    apply wp.mono (wp_writeRowField_stray stray.1 stray.2)
    · exact fun _ stranded => ⟨row, stranded⟩
    · exact fun _ _ impossible => impossible
  | _ => exact stray.elim

end Steps

/-- The turn reaches a mutation that meets the condition. -/
def Mutation.Reaches (plan : Plan V S) (meets : Session V S → Mutation V S → Prop)
    (mutations : List (Mutation V S)) (session : Session V S) : Prop :=
  ∃ done mutation rest middle, mutations = done ++ mutation :: rest ∧
    runTurn plan done session = (.ok (), middle) ∧ meets middle mutation

/-- A stray write is reached in the turn. -/
def Mutation.Strays (plan : Plan V S) : List (Mutation V S) → Session V S → Prop :=
  Reaches plan Stray

/-- The calls that mutations ask for, named from the given one on. -/
def Mutation.askedCalls : TransientEffectCallId → List (Mutation V S) →
    List (TransientEffectInvocation V)
  | _, [] => []
  | callId, mutation :: rest =>
    match mutation.call? callId with
    | some call => call :: askedCalls ⟨callId.launchEpoch, callId.sequence + 1⟩ rest
    | none => askedCalls callId rest

section Runs

variable {initial : MachineInstance V S} {session middle final : Session V S} {plan : Plan V S}
  {mutation : Mutation V S} {mutations : List (Mutation V S)}
  {meets : Session V S → Mutation V S → Prop}

theorem Mutation.not_strays
    (harmless : ∀ mutation ∈ mutations, ∀ session : Session V S, ¬mutation.Stray session) :
    ¬Strays plan mutations session := by
  rintro ⟨done, mutation, _, middle, rfl, _, stray⟩
  exact harmless mutation (List.mem_append_right done List.mem_cons_self) middle stray

theorem Mutation.runTurn_cons (applied : exec (mutation.apply plan) session = (.ok (), middle)) :
    runTurn plan (mutation :: mutations) session = runTurn plan mutations middle := by
  unfold runTurn
  rw [runAll, applied]

theorem Mutation.runTurn_cons_error {error : Error}
    (failed : exec (mutation.apply plan) session = (.error error, middle)) :
    runTurn plan (mutation :: mutations) session = (.error error, middle) := by
  unfold runTurn
  rw [runAll, failed]

theorem Mutation.runTurn_append {first : List (Mutation V S)}
    (ran : runTurn plan first session = (.ok (), middle)) :
    runTurn plan (first ++ mutations) session = runTurn plan mutations middle := by
  induction first generalizing session with
  | nil =>
    cases ran
    rfl
  | cons mutation first ih =>
    rcases applied : exec (mutation.apply plan) session with ⟨_ | _, _⟩
    · rw [runTurn_cons_error applied] at ran
      cases ran
    · rw [runTurn_cons applied] at ran
      rw [List.cons_append, runTurn_cons applied]
      exact ih ran

theorem Mutation.Reaches.head (met : meets session mutation) :
    Reaches plan meets (mutation :: mutations) session :=
  ⟨[], mutation, mutations, session, rfl, rfl, met⟩

theorem Mutation.reaches_cons_iff
    (applied : exec (mutation.apply plan) session = (.ok (), middle)) :
    Reaches plan meets (mutation :: mutations) session ↔
      meets session mutation ∨ Reaches plan meets mutations middle := by
  constructor
  · rintro ⟨done, met, rest, last, whole, reached, meets⟩
    cases done with
    | nil =>
      cases whole
      cases reached
      exact .inl meets
    | cons first done =>
      cases whole
      rw [runTurn_cons applied] at reached
      exact .inr ⟨done, met, rest, last, rfl, reached, meets⟩
  · rintro (met | ⟨done, met, rest, last, rfl, reached, meets⟩)
    · exact .head met
    · exact ⟨mutation :: done, met, rest, last, rfl, (runTurn_cons applied).trans reached, meets⟩

/-- A turn without stray writes can be taken back wherever it ends. -/
theorem Mutation.fallen_runTurn (inTurn : InTurn initial session)
    (placed : ¬Strays plan mutations session) : Fallen initial (runTurn plan mutations session).2 ∧
      ((runTurn plan mutations session).1 = .ok () →
        InTurn initial (runTurn plan mutations session).2) := by
  induction mutations generalizing session with
  | nil => exact ⟨inTurn.fallen, fun _ => inTurn⟩
  | cons mutation mutations ih =>
    have step := Mutation.wp_apply plan inTurn fun stray : mutation.Stray session =>
      placed (.head stray)
    unfold wp at step
    rcases applied : exec (mutation.apply plan) session with ⟨_ | _, _⟩
    · rw [applied] at step
      rw [runTurn_cons_error applied]
      exact ⟨step, fun impossible => nomatch impossible⟩
    · rw [applied] at step
      rw [runTurn_cons applied]
      exact ih step.1 fun strays => placed ((reaches_cons_iff applied).mpr (.inr strays))

/-- A turn that reaches a stray write ends there, with a note for a row that does not exist. -/
theorem Mutation.stranded_runTurn (strays : Strays plan mutations session) :
    ∃ error row final, runTurn plan mutations session = (.error error, final) ∧
      Stranded row final := by
  obtain ⟨done, _, _, middle, rfl, reached, stray⟩ := strays
  induction done generalizing session with
  | nil =>
    have same : session = middle := congrArg Prod.snd reached
    subst same
    obtain ⟨error, final, failed, row, stranded⟩ :=
      (Mutation.wp_apply_stray plan stray).eq_error
    rw [List.nil_append, runTurn_cons_error failed]
    exact ⟨error, row, final, rfl, stranded⟩
  | cons first done ih =>
    rcases applied : exec (first.apply plan) session with ⟨error | _, _⟩
    · rw [runTurn_cons_error applied] at reached
      cases reached
    · rw [runTurn_cons applied] at reached
      rw [List.cons_append, runTurn_cons applied]
      exact ih reached

theorem Mutation.calls_runTurn (inTurn : InTurn initial session)
    (evaluated : ∀ mutation ∈ mutations, mutation.Evaluated)
    (succeeds : runTurn plan mutations session = (.ok (), final)) :
    final.work.transientEffects =
        session.work.transientEffects ++ askedCalls session.nextCall mutations ∧
      ∀ ⦃call⦄, initial.Owned call → ∀ ⦃pending⦄,
        final.machine.pendingTransientEffects[call]? = some pending ↔
          session.machine.pendingTransientEffects[call]? = some pending ∧
            ¬Reaches plan (fun session => Ends session pending) mutations session := by
  induction mutations generalizing session with
  | nil =>
    cases succeeds
    refine ⟨(List.append_nil _).symm, fun _ _ _ => (and_iff_left ?_).symm⟩
    rintro ⟨done, _, _, _, whole, _⟩
    cases done <;> cases whole
  | cons mutation mutations ih =>
    have placed : ¬mutation.Stray session := by
      intro stray
      obtain ⟨_, _, failed, _⟩ := (wp_apply_stray plan stray).eq_error
      rw [runTurn_cons_error failed] at succeeds
      cases succeeds
    have step := wp_apply plan inTurn placed
    unfold wp at step
    rcases applied : exec (mutation.apply plan) session with ⟨_ | _, middle⟩
    · rw [runTurn_cons_error applied] at succeeds
      cases succeeds
    · rw [applied] at step
      rw [runTurn_cons applied] at succeeds
      obtain ⟨inTurn, step⟩ := step
      replace step := step (evaluated mutation List.mem_cons_self)
      obtain ⟨requests, calls⟩ := ih inTurn
        (fun other member => evaluated other (List.mem_cons_of_mem _ member)) succeeds
      have numbers := step.numbers
      simp only [Session.numbers, Prod.mk.injEq] at numbers
      obtain ⟨epoch, _, sequence, asked⟩ := numbers
      constructor
      · have next : middle.nextCall = ⟨_, _⟩ := TransientEffectCallId.ext epoch sequence
        rw [requests, asked, next, askedCalls]
        cases mutation.call? session.nextCall with
        | none => simp [Session.nextCall]
        | some => simp [Session.nextCall]
      · intro call owned pending
        rw [calls owned, step.pending owned, reaches_cons_iff applied, not_or, and_assoc]

end Runs

end BoonCircuit.Executor
