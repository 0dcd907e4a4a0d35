import BoonCircuit.Executor.TurnRun

/-!
# What a rollback leaves

A rollback replays the positional log, restores the journals and rebuilds what is
derived from the lists.  It never fails on a turn that can be taken back, and it
leaves the machine the turn began with, up to source bindings and the states of
pending calls.
-/

namespace BoonCircuit.Executor

open Lib Checks MachineInstance Action Std.ExtTreeMap BTreeMap ListState

variable {V S : Type} [RuntimeValue V]

/-- The list without the source bindings of its rows. -/
def ListState.unbound (list : ListState V) : ListState V :=
  { list with rows := list.rows.map fun _ row => { row with bindings := ∅ } }

/-- What a failed turn must leave alone. -/
@[ext]
structure TurnState (V S : Type) [RuntimeValue V] where
  rootStates : BTreeMap StateId (PrivatePresence V)
  touchedRootStates : BTreeSet StateId
  lists : BTreeMap ListId (ListState V)
  touchedLists : BTreeSet ListId
  touchedRowFields : BTreeSet RowField
  collectionAuthorities : BTreeMap (CollectionAuthorityAddress V) (CollectionAuthorityState V)
  collectionProducers : BTreeMap (CollectionProducerSite V) (CollectionProducerCandidate V)
  effectActivations : BTreeMap EffectConsumer EffectActivation
  transientEffectResults : BTreeMap TransientEffectResultKey V
  pendingTransientEffects : BTreeMap TransientEffectCallId (PendingTransientEffect S)

variable (machine : MachineInstance V S)

def MachineInstance.turnState : TurnState V S where
  rootStates := machine.rootStates
  touchedRootStates := machine.touchedRootStates
  lists := machine.lists.map fun _ list => list.unbound
  touchedLists := machine.touchedLists
  touchedRowFields := machine.touchedRowFields
  collectionAuthorities := machine.collectionAuthorities
  collectionProducers := machine.collectionProducers
  effectActivations := machine.effectActivations
  transientEffectResults := machine.transientEffectResults
  pendingTransientEffects := machine.pendingTransientEffects

def TurnState.withPending (state : TurnState V S)
    (pending : BTreeMap TransientEffectCallId (PendingTransientEffect S)) : TurnState V S :=
  { state with pendingTransientEffects := pending }

def MachineInstance.withPending
    (pending : BTreeMap TransientEffectCallId (PendingTransientEffect S)) : MachineInstance V S :=
  { machine with pendingTransientEffects := pending }

/-- Activations of the program itself and of rows that exist. -/
def MachineInstance.attachedActivations : BTreeMap EffectConsumer EffectActivation :=
  machine.effectActivations.filter fun consumer _ =>
    consumer.row.all fun row => (machine.row? row).isSome

/-- The machine differs from another one neither in effects nor in revisions. -/
structure Beside (before after : MachineInstance V S) : Prop where
  effects : after.effects = before.effects
  revisions : after.revisionOf = before.revisionOf

theorem Beside.refl : Beside machine machine :=
  ⟨rfl, rfl⟩

theorem Beside.trans {first second third : MachineInstance V S} (earlier : Beside first second)
    (later : Beside second third) : Beside first third :=
  ⟨later.effects.trans earlier.effects, later.revisions.trans earlier.revisions⟩

section Frame

variable {machine : MachineInstance V S} {list next : ListState V} {listId : ListId}

theorem Beside.withList (found : machine.lists[listId]? = some list)
    (revision : next.revision = list.revision) : Beside machine (machine.withList listId next) :=
  ⟨rfl, revisionOf_withList found revision⟩

omit [RuntimeValue V] in
theorem SourceOrderPatch.revision_of_applyReverseIdempotent {patch : SourceOrderPatch}
    (reversed : patch.applyReverseIdempotent list = .ok next) : next.revision = list.revision := by
  unfold SourceOrderPatch.applyReverseIdempotent at reversed
  split at reversed
  · cases reversed
    rfl
  · rw [check_bind_eq_ok_iff] at reversed
    obtain ⟨_, _, same⟩ := bind_eq_ok_iff.mp reversed.2
    cases same
    rfl

omit [RuntimeValue V] in
theorem ListState.revision_indexOwnerPartitionRow {row : RowId} :
    (list.indexOwnerPartitionRow row).2.revision = list.revision := by
  unfold indexOwnerPartitionRow
  split
  · rfl
  · split
    · rfl
    · split
      · rfl
      · dsimp only
        split <;> rfl

/-- Taking an entry back leaves effects and revisions alone, whether it succeeds or not. -/
theorem beside_undoAuthority (entry : AuthorityUndo V) :
    wp (undoAuthority entry) (Beside machine) (fun _ after => Beside machine after) machine := by
  cases entry with
  | rootState => exact ⟨rfl, rfl⟩
  | rowField =>
    unfold undoAuthority
    simp only [wp_bind, wp_get, wp_attempt, wp_modify]
    exact ⟨fun _ _ => ⟨rfl, revisionOf_modifyRow⟩, fun _ _ => .refl machine⟩
  | appendRow row previousNextKey sourceOrder =>
    unfold undoAuthority rollbackList putList
    simp only [wp_bind, wp_get, wp_attempt, wp_modify, okOr_eq_ok_iff]
    refine ⟨fun list found => ?_, fun _ _ => .refl machine⟩
    have emptied : ∀ state, state.revision = list.revision →
        Beside machine (machine.withList row.list state) := fun _ => Beside.withList found
    have dropped : ∀ removed, ({ list with rows := list.rows.erase row }.removeOwnerPartitionRow
        row removed).revision = list.revision := by
      intro removed
      change (list.dropRow row removed).revision = list.revision
      rw [dropRow_eq]
    have undone : ∀ {state restored}, state.revision = list.revision →
        sourceOrder.applyReverseIdempotent state = .ok restored →
        Beside machine (machine.withList row.list { restored with nextKey := previousNextKey }) :=
      fun same reversed => emptied _
        ((SourceOrderPatch.revision_of_applyReverseIdempotent reversed).trans same)
    split
    · refine ⟨fun _ reversed => ?_, fun _ _ => emptied _ (dropped _)⟩
      rw [insert_insert]
      exact ⟨(undone (dropped _) reversed).effects, (undone (dropped _) reversed).revisions⟩
    · refine ⟨fun _ reversed => ?_, fun _ _ => emptied _ rfl⟩
      rw [insert_insert]
      exact ⟨(undone rfl reversed).effects, (undone rfl reversed).revisions⟩
  | removeRow row value =>
    unfold undoAuthority rollbackList putList
    simp only [wp_bind, wp_get, wp_attempt, wp_modify, okOr_eq_ok_iff]
    refine ⟨fun list found => ⟨fun restored reversed => ?_, fun _ _ => .refl machine⟩,
      fun _ _ => .refl machine⟩
    have revision := SourceOrderPatch.revision_of_applyReverseIdempotent reversed
    have indexed : (if row ∈ restored.rows then (Except.ok (), restored)
        else { restored with rows := restored.rows.insert row value }.indexOwnerPartitionRow
          row).2.revision = list.revision := by
      split
      · exact revision
      · exact revision_indexOwnerPartitionRow.trans revision
    refine ⟨fun _ _ => ?_, fun _ _ => Beside.withList found indexed⟩
    rw [insert_insert]
    exact ⟨rfl, revisionOf_withList found indexed⟩
  | reorderRows listId undo ownerPartition =>
    unfold undoAuthority putList
    simp only [wp_bind, wp_get, wp_attempt, wp_modify, okOr_eq_ok_iff]
    refine ⟨fun list found => ⟨fun restored reversed => ?_, fun _ _ => .refl machine⟩,
      fun _ _ => .refl machine⟩
    have revision := SourceOrderPatch.revision_of_applyReverseIdempotent reversed
    have beside : Beside machine (machine.withList listId restored) :=
      Beside.withList found revision
    cases ownerPartition with
    | none => exact beside
    | some =>
      simp only [wp_bind, wp_attempt, wp_modify]
      refine ⟨fun partition _ => ?_, fun _ _ => beside⟩
      rw [insert_insert]
      exact Beside.withList found revision
  | collection | collectionProducer => exact ⟨rfl, rfl⟩

theorem beside_runAll (entries : List (AuthorityUndo V)) :
    Beside machine (runAll (fun entry => exec (undoAuthority entry)) entries machine).2 := by
  induction entries generalizing machine with
  | nil => exact .refl machine
  | cons entry entries ih =>
    have step : wp _ (Beside machine) _ machine := beside_undoAuthority entry
    unfold wp at step
    rw [runAll]
    rcases undone : exec (undoAuthority entry) machine with ⟨_ | _, _⟩
    · rw [undone] at step
      exact step
    · rw [undone] at step
      exact step.trans ih

end Frame

section Revisions

variable {session : Session V S}

/-- A session with other lists. -/
def Session.withLists (session : Session V S) (lists : BTreeMap ListId (ListState V)) :
    Session V S :=
  { session with machine := { session.machine with lists := lists } }

/-- The session with the revisions of a journal. -/
def Revised (session : Session V S) (journal : List (ListId × UInt64)) (after : Session V S) :
    Prop :=
  ∃ lists, after = session.withLists lists ∧
    ∀ id : ListId, lists[id]? = session.machine.lists[id]?.map fun list =>
      { list with revision := (lastWritten journal id).getD list.revision }

theorem wp_restoreListRevisions {journal : List (ListId × UInt64)}
    (known : ∀ entry ∈ journal, entry.1 ∈ session.machine.lists) :
    wp (restoreListRevisions journal) (fun _ => False) (fun _ => Revised session journal)
      session := by
  unfold restoreListRevisions
  apply wp_forM_done (Revised session)
  · refine ⟨session.machine.lists, rfl, fun id => ?_⟩
    cases session.machine.lists[id]? <;> rfl
  · rintro _ entry _ rfl _ ⟨lists, rfl, lookup⟩
    have member : entry.1 ∈ session.machine.lists := known entry (by simp)
    obtain ⟨_, found⟩ := mem_iff_exists.mp member
    have present := lookup entry.1
    rw [found, Option.map_some] at present
    unfold listOf modifyMachine Session.withLists
    simp only [wp_bind, wp_get, wp_attempt, wp_modify, present, okOr]
    refine ⟨fun _ _ => ⟨_, rfl, fun id => ?_⟩, ?_⟩
    · dsimp only
      rw [BTreeMap.getElem?_modify, lookup, lastWritten_concat]
      split
      · cases session.machine.lists[id]? <;> rfl
      · rfl
    · rintro _ ⟨⟩

end Revisions

section Rebuild

variable {session : Session V S}

/-- The session with the partitions of some lists rebuilt. -/
def Repartitioned (session : Session V S) (done : List ListId) (after : Session V S) : Prop :=
  ∃ lists, after = session.withLists lists ∧
    ∀ id, lists[id]? = session.machine.lists[id]?.map fun list =>
      if id ∈ done then list.rebuildOwnerPartitions.2 else list

theorem wp_rebuildListPartitions
    (rebuilds : ∀ {id : ListId} {list : ListState V}, session.machine.lists[id]? = some list →
      list.rebuildOwnerPartitions.1 = .ok ()) :
    wp (session.machine.lists.keys.forM rebuildListPartitions) (fun _ => False)
      (fun _ => Repartitioned session session.machine.lists.keys) session := by
  apply wp_forM_done (Repartitioned session)
  · refine ⟨session.machine.lists, rfl, fun id => ?_⟩
    simp
  · rintro done listId rest whole _ ⟨lists, rfl, lookup⟩
    have distinct : (done ++ listId :: rest).Nodup := whole ▸ nodup_keys
    have later : listId ∉ done := by
      intro earlier
      exact List.disjoint_of_nodup_append distinct earlier List.mem_cons_self
    have member : listId ∈ session.machine.lists := by
      rw [← mem_keys, ← whole]
      simp
    obtain ⟨list, found⟩ := mem_iff_exists.mp member
    have present : lists[listId]? = some list := by
      rw [lookup, found, Option.map_some, if_neg later]
    unfold rebuildListPartitions listOf modifyMachine Session.withLists
    simp only [wp_bind, wp_get, wp_attempt, wp_modify, present, okOr]
    refine ⟨fun _ same => ?_, fun _ impossible => nomatch impossible⟩
    cases same
    refine ⟨fun _ _ => ⟨_, rfl, fun id => ?_⟩, fun error failed => ?_⟩
    · rw [BTreeMap.getElem?_insert]
      split
      · next same => rw [← same, found, Option.map_some, if_pos (by simp)]
      · next apart =>
          rw [lookup]
          congr 1
          funext other
          have known : id ∈ done ++ [listId] ↔ id ∈ done := by simp [Ne.symm apart]
          simp only [known]
    · rw [rebuilds found] at failed
      cases failed

omit [RuntimeValue V] in
theorem ListState.rebuildOwnerPartitions_of_agree {id : ListId} {list origin : ListState V}
    (wellFormed : origin.WellFormed id)
    (agree : ListAgree (Covered.nothing : Covered V).rowFields list origin) :
    list.rebuildOwnerPartitions =
      (.ok (), { list with ownerPartitions := origin.ownerPartitions }) := by
  have same : { list with ownerPartitions := origin.ownerPartitions }.WellFormed id := by
    apply wellFormed.congr
    · exact congrArg ListOrder.rows agree.order
    · rfl
    · intro row
      unfold filingOf
      have rows := agree.rows row
      dsimp only
      generalize list.rows[row]? = left, origin.rows[row]? = right at rows
      cases rows with
      | none => rfl
      | some agree => rw [Option.map_some, Option.map_some, agree.1, agree.2]
  exact same.rebuildOwnerPartitions_eq

end Rebuild

/-- Binds sources at the root under running epochs. -/
def MachineInstance.bindRoots (machine : MachineInstance V S) (sources : List SourceId) :
    MachineInstance V S :=
  sources.foldl (fun machine source => { machine with
    rootSourceBindings := machine.rootSourceBindings.insert source machine.nextBindingId
    nextBindingId := machine.nextBindingId + 1 }) machine

/-- The scope that sources of a list's rows are bound in. -/
def Plan.scopeOf (plan : Plan V S) (row : RowId) : Option ScopeId :=
  (plan.listSlot? row.list).bind ListStorageSlot.scopeId

/-- Binds the sources of rows, one row after the other. -/
def MachineInstance.bindRows (plan : Plan V S) (machine : MachineInstance V S)
    (rows : List RowId) : MachineInstance V S :=
  rows.foldl (fun machine row => machine.bindSources row (plan.scopedSources (plan.scopeOf row)))
    machine

def MachineInstance.clearBindings (machine : MachineInstance V S) (rows : List RowId) :
    MachineInstance V S :=
  rows.foldl (fun machine row => machine.modifyRow row fun state =>
    { state with bindings := ∅ }) machine

/-- The machine with no source bound at its root. -/
def MachineInstance.unrooted (machine : MachineInstance V S) : MachineInstance V S :=
  { machine with rootSourceBindings := ∅ }

/-- The machine with all its sources bound anew. -/
def MachineInstance.rebound (plan : Plan V S) (machine : MachineInstance V S) :
    MachineInstance V S :=
  let roots := ({ machine with nextBindingId := 1 }.unrooted).bindRoots plan.rootSources
  (roots.clearBindings machine.orderedRows).bindRows plan machine.orderedRows

section Bindings

variable {machine : MachineInstance V S} {session : Session V S} {plan : Plan V S} {row : RowId}
  {edit : Row V → Row V}

omit [RuntimeValue V] in
theorem Plan.length_rootSources_lt (plan : Plan V S) : plan.rootSources.length < 2 ^ 63 := by
  unfold Plan.rootSources
  rw [List.length_map]
  apply Nat.lt_of_le_of_lt (List.length_filter_le _ _)
  rw [length_toList]
  exact plan.size_routes_lt

theorem MachineInstance.turnState_modifyRow
    (same : ∀ content, { edit content with bindings := ∅ } = { content with bindings := ∅ }) :
    (machine.modifyRow row edit).turnState = machine.turnState := by
  have rows : ∀ list : ListState V,
      unbound { list with rows := list.rows.modify row edit } = list.unbound := by
    intro list
    unfold unbound
    dsimp only
    congr 1
    apply ext_getElem?
    intro id
    rw [getElem?_map, getElem?_map, BTreeMap.getElem?_modify]
    split
    · cases list.rows[id]? with
      | none => rfl
      | some content => exact congrArg some (same content)
    · rfl
  have lists : ((machine.modifyRow row edit).lists.map fun _ list => list.unbound) =
      machine.lists.map fun _ list => list.unbound := by
    apply ext_getElem?
    intro id
    unfold modifyRow
    rw [getElem?_map, getElem?_map, getElem?_modifyList]
    split
    · cases machine.lists[id]? with
      | none => rfl
      | some list => exact congrArg some (rows list)
    · rfl
  unfold turnState
  rw [lists]
  rfl

theorem MachineInstance.turnState_bindSource {source : SourceId} :
    (machine.bindSource row source).turnState = machine.turnState := by
  have same : (machine.modifyRow row fun state => { state with
      bindings := state.bindings.insert source machine.nextBindingId }).turnState = _ :=
    turnState_modifyRow fun _ => rfl
  exact same

variable {sources : List SourceId} {rows : List RowId} {id : RowId}

theorem MachineInstance.turnState_bindRoots :
    (machine.bindRoots sources).turnState = machine.turnState := by
  apply foldl_view turnState
  exact fun _ _ => rfl

theorem MachineInstance.turnState_bindSources :
    (machine.bindSources row sources).turnState = machine.turnState := by
  apply foldl_view turnState
  exact fun _ _ => turnState_bindSource

theorem MachineInstance.turnState_bindRows :
    (machine.bindRows plan rows).turnState = machine.turnState := by
  apply foldl_view turnState
  exact fun _ _ => turnState_bindSources

theorem MachineInstance.turnState_clearBindings :
    (machine.clearBindings rows).turnState = machine.turnState := by
  apply foldl_view turnState
  exact fun _ _ => turnState_modifyRow fun _ => rfl

theorem MachineInstance.turnState_rebound (machine : MachineInstance V S) (plan : Plan V S) :
    (machine.rebound plan).turnState = machine.turnState := by
  unfold MachineInstance.rebound
  rw [turnState_bindRows, turnState_clearBindings, turnState_bindRoots]
  rfl

theorem MachineInstance.nextBindingId_bindRoots
    (room : machine.nextBindingId.toNat + sources.length < 2 ^ 64) :
    (machine.bindRoots sources).nextBindingId.toNat =
      machine.nextBindingId.toNat + sources.length := by
  induction sources using List.reverseRecOn with
  | nil => rfl
  | append_singleton sources source ih =>
    rw [List.length_append, List.length_singleton] at room ⊢
    have earlier := ih (by omega)
    unfold bindRoots at earlier ⊢
    rw [List.foldl_append, List.foldl_cons, List.foldl_nil, UInt64.toNat_add, earlier]
    exact Nat.mod_eq_of_lt (by simpa [Nat.add_assoc] using room)

theorem wp_initializeRootSourceBindings (first : session.machine.nextBindingId = 1) :
    wp (initializeRootSourceBindings plan) (fun _ => False) (fun _ after =>
      after = ⟨session.machine.unrooted.bindRoots plan.rootSources, session.work⟩) session := by
  unfold initializeRootSourceBindings modifyMachine
  rw [wp_bind, wp_modify]
  apply wp_forM_done fun done after =>
    after = Session.mk (session.machine.unrooted.bindRoots done) session.work
  · rfl
  · rintro done _ _ whole _ rfl
    have few := plan.length_rootSources_lt
    rw [← whole, List.length_append, List.length_cons] at few
    have start : session.machine.unrooted.nextBindingId.toNat = 1 := congrArg UInt64.toNat first
    have epoch : (session.machine.unrooted.bindRoots done).nextBindingId.toNat = _ :=
      nextBindingId_bindRoots (by omega)
    have room : ¬(session.machine.unrooted.bindRoots done).nextBindingId = 0xFFFFFFFFFFFFFFFF := by
      intro full
      rw [full] at epoch
      change 18446744073709551615 = _ at epoch
      omega
    simp only [wp_bind, wp_get, wp_attempt, wp_modify, checkedSucc, if_neg room, okOr]
    refine ⟨fun next counted => ?_, fun error failed => (nomatch failed)⟩
    cases counted
    unfold bindRoots
    rw [List.foldl_append]
    rfl

theorem MachineInstance.isSome_row?_modifyRow :
    ((machine.modifyRow row edit).row? id).isSome = (machine.row? id).isSome := by
  apply row?_modifyList
  intro list
  rw [BTreeMap.getElem?_modify]
  split
  · rw [Option.isSome_map]
  · rfl

theorem MachineInstance.isSome_row?_bindSources :
    ((machine.bindSources row sources).row? id).isSome = (machine.row? id).isSome := by
  apply foldl_view fun machine : MachineInstance V S => (machine.row? id).isSome
  exact fun _ _ => isSome_row?_modifyRow

theorem MachineInstance.isSome_row?_clearBindings :
    ((machine.clearBindings rows).row? id).isSome = (machine.row? id).isSome := by
  apply foldl_view fun machine : MachineInstance V S => (machine.row? id).isSome
  exact fun _ _ => isSome_row?_modifyRow

theorem MachineInstance.lists_bindRoots : (machine.bindRoots sources).lists = machine.lists := by
  apply foldl_view MachineInstance.lists
  exact fun _ _ => rfl

theorem wp_bindRows (present : ∀ row ∈ rows, (session.machine.row? row).isSome) :
    wp (rows.forM fun row => bindRowSources plan row (plan.scopeOf row)) (fun _ => False)
      (fun _ after => after = ⟨session.machine.bindRows plan rows, session.work⟩) session := by
  induction rows generalizing session with
  | nil => rfl
  | cons row rows ih =>
    change wp (bindRowSources plan row (plan.scopeOf row) >>= fun _ => rows.forM _) _ _ _
    obtain ⟨_, found⟩ := Option.isSome_iff_exists.mp (present row List.mem_cons_self)
    unfold bindRowSources modifyMachine
    simp only [wp_bind, wp_get, wp_attempt, wp_modify, found, okOr]
    refine ⟨fun _ _ => ih fun other member => ?_, fun _ failed => (nomatch failed)⟩
    rw [isSome_row?_bindSources]
    exact present other (List.mem_cons_of_mem _ member)

/-- Rows in the order of a list are rows of that list. -/
def MachineInstance.Ordered (machine : MachineInstance V S) : Prop :=
  ∀ {id : ListId} {list : ListState V} {row : RowId}, machine.lists[id]? = some list →
    row ∈ list.order.rows → row.list = id ∧ row ∈ list.rows

theorem MachineInstance.Ordered.isSome_row? (ordered : machine.Ordered)
    (member : row ∈ machine.orderedRows) : (machine.row? row).isSome := by
  obtain ⟨⟨id, _⟩, listed, inOrder⟩ := List.mem_flatMap.mp member
  have found := mem_toList_iff.mp listed
  obtain ⟨rfl, known⟩ := ordered found inOrder
  unfold row?
  rw [found, Option.bind_some]
  exact mem_iff_isSome_getElem?.mp known

theorem wp_rebuildRuntimeStateAfterRollback (unlimited : session.work.enforceWorkLimit = false)
    (rebuilds : ∀ {id : ListId} {list : ListState V}, session.machine.lists[id]? = some list →
      ∃ partitions, list.rebuildOwnerPartitions =
        (.ok (), { list with ownerPartitions := partitions })) (ordered : session.machine.Ordered) :
    wp (rebuildRuntimeStateAfterRollback plan) (fun _ => False) (fun _ after =>
      ∃ middle, Repartitioned session session.machine.lists.keys middle ∧
        after.machine = middle.machine.rebound plan) session := by
  have succeeds : ∀ {id : ListId} {list : ListState V}, session.machine.lists[id]? = some list →
      list.rebuildOwnerPartitions.1 = .ok () := by
    intro id list found
    obtain ⟨partitions, rebuilt⟩ := rebuilds found
    rw [rebuilt]
  unfold rebuildRuntimeStateAfterRollback
  rw [wp_bind, wp_get]
  apply (wp_rebuildListPartitions succeeds).bind
  intro _ middle repartitioned
  obtain ⟨lists, rfl, lookup⟩ := id repartitioned
  have stillOrdered : (session.withLists lists).machine.Ordered := by
    intro id list row found inOrder
    rw [Session.withLists] at found
    dsimp only at found
    rw [lookup] at found
    obtain ⟨origin, present, same⟩ := Option.map_eq_some_iff.mp found
    obtain ⟨partitions, rebuilt⟩ := rebuilds present
    rw [rebuilt] at same
    have known := @ordered id origin row present
    split at same
    · subst same
      exact known inOrder
    · subst same
      exact known inOrder
  unfold modifyMachine
  rw [wp_bind, wp_modify]
  apply (wp_initializeRootSourceBindings rfl).bind
  rintro _ _ rfl
  have rows : (bindRoots (unrooted
      { (session.withLists lists).machine with nextBindingId := 1 }) plan.rootSources).orderedRows =
        (session.withLists lists).machine.orderedRows := by
    unfold orderedRows
    rw [lists_bindRoots]
    rfl
  rw [wp_bind, wp_get]
  dsimp only
  rw [rows]
  unfold consume modifyWork
  simp only [wp_bind, wp_get, wp_attempt, wp_modify]
  refine ⟨fun _ _ => ?_, fun _ failed => ?_⟩
  · apply (wp_bindRows _).weaken
    · rintro _ _ rfl
      exact ⟨_, repartitioned, rfl⟩
    · intro row member
      refine isSome_row?_clearBindings.trans ?_
      unfold row?
      rw [lists_bindRoots]
      exact stillOrdered.isSome_row? member
  · obtain ⟨⟨enforced, _⟩, _⟩ := reject_eq_error_iff.mp failed
    exact Bool.false_ne_true (unlimited.symm.trans enforced)

end Bindings

section Rollback

variable {initial machine : MachineInstance V S} {session : Session V S} {plan : Plan V S}

omit [RuntimeValue V] in
theorem ListState.unbound_eq {list origin : ListState V}
    (agree : ListAgree (Covered.nothing : Covered V).rowFields list origin)
    (revision : list.revision = origin.revision)
    (partitions : list.ownerPartitions = origin.ownerPartitions) :
    list.unbound = origin.unbound := by
  obtain ⟨rows, _, _, _, _, _, _⟩ := list
  obtain ⟨sameOrder, sameTokens, sameToken, sameKey, sameRows⟩ := agree
  unfold unbound
  dsimp only at *
  rw [sameOrder, sameTokens, sameToken, sameKey, revision, partitions]
  congr 1
  apply ext_getElem?
  intro id
  rw [getElem?_map, getElem?_map]
  have same := sameRows id
  generalize rows[id]? = left, origin.rows[id]? = right at same
  cases same with
  | none => rfl
  | some agree =>
    rename_i left right
    obtain ⟨_, origin, fields, _⟩ := left
    obtain ⟨sameAncestry, sameOrigin, sameFields⟩ := agree
    dsimp only at sameAncestry sameOrigin sameFields
    have same : fields = right.fields :=
      ext_getElem? fun field => sameFields field not_false
    rw [Option.map_some, Option.map_some, sameAncestry, sameOrigin, same]

theorem MachineInstance.isSome_row?_of_turnState {other : MachineInstance V S}
    (same : machine.turnState.lists = other.turnState.lists) (row : RowId) :
    (machine.row? row).isSome = (other.row? row).isSome := by
  have known : ∀ machine : MachineInstance V S, (machine.row? row).isSome =
      (machine.turnState.lists[row.list]?.bind (·.rows[row]?)).isSome := by
    intro machine
    unfold row? turnState
    dsimp only
    rw [getElem?_map]
    cases machine.lists[row.list]? with
    | none => rfl
    | some =>
      rw [Option.map_some, Option.bind_some, Option.bind_some]
      unfold unbound
      rw [getElem?_map, Option.isSome_map]
  rw [known, known, same]

/-- A machine with the authority, revisions, activations and results of another one. -/
structure Rewound (initial machine : MachineInstance V S) : Prop where
  agree : Agree Covered.nothing machine initial
  revisions : machine.revisionOf = initial.revisionOf
  activations : machine.effectActivations = initial.effectActivations
  results : machine.transientEffectResults = initial.transientEffectResults

theorem Rewound.list {id : ListId} {list : ListState V} (rewound : Rewound initial machine)
    (found : machine.lists[id]? = some list) : ∃ origin, initial.lists[id]? = some origin ∧
      ListAgree (Covered.nothing : Covered V).rowFields list origin ∧
      list.revision = origin.revision := by
  obtain ⟨origin, present, agree⟩ := optionRel_some_left (found ▸ rewound.agree.lists id)
  have revision := congrFun rewound.revisions id
  unfold revisionOf at revision
  rw [found, present] at revision
  exact ⟨origin, present, agree, revision⟩

theorem Rewound.ordered (rewound : Rewound initial machine) (wellFormed : initial.WellFormed) :
    machine.Ordered := by
  intro id list row found inOrder
  obtain ⟨_, present, agree, _⟩ := rewound.list found
  have listWellFormed := wellFormed.lists present
  rw [agree.order, listWellFormed.mem_order] at inOrder
  obtain ⟨_, rowFound⟩ := mem_iff_exists.mp inOrder
  exact ⟨(listWellFormed.owned rowFound).1, (agree.mem_rows row).mpr inOrder⟩

/-- Rebuilt partitions are the partitions of the initial machine. -/
theorem Rewound.turnState_of_repartitioned {after : Session V S}
    (rewound : Rewound initial session.machine) (wellFormed : initial.WellFormed)
    (repartitioned : Repartitioned session session.machine.lists.keys after) :
    after.machine.turnState =
      initial.turnState.withPending session.machine.pendingTransientEffects := by
  obtain ⟨lists, rfl, lookup⟩ := repartitioned
  have agree := rewound.agree
  refine TurnState.ext ?_ ?_ ?_ ?_ ?_ ?_ ?_ rewound.activations rewound.results rfl
  · exact ext_getElem? fun state => agree.rootStates state not_false
  · exact Std.ExtTreeSet.ext_mem fun state => agree.touchedRootStates state not_false
  · apply ext_getElem?
    intro id
    change (lists.map _)[id]? = (initial.lists.map _)[id]?
    rw [getElem?_map, getElem?_map, lookup]
    cases found : session.machine.lists[id]? with
    | none =>
      have absent := agree.lists id
      rw [found] at absent
      cases present : initial.lists[id]? with
      | none => rfl
      | some =>
        rw [present] at absent
        cases absent
    | some list =>
      obtain ⟨_, present, listAgree, revision⟩ := rewound.list found
      have listed : id ∈ session.machine.lists.keys :=
        mem_keys.mpr (mem_iff_exists.mpr ⟨list, found⟩)
      rw [present, Option.map_some, Option.map_some, Option.map_some, if_pos listed,
        rebuildOwnerPartitions_of_agree (wellFormed.lists present) listAgree]
      refine congrArg some (unbound_eq ?_ revision rfl)
      exact { listAgree with }
  · exact Std.ExtTreeSet.ext_mem fun list => agree.touchedLists list not_false
  · exact Std.ExtTreeSet.ext_mem fun entry => agree.touchedRowFields entry not_false
  · exact ext_getElem? fun address => agree.collections address not_false
  · exact ext_getElem? fun site => agree.producers site not_false

/-- The machine with the pending calls that the logs of a session recall. -/
def Session.recalled (session : Session V S) : MachineInstance V S :=
  session.machine.withPending
    (restorePending session.work session.machine.pendingTransientEffects)

theorem exec_replayUndo {outcome : Except Error Unit}
    (replayed : replay (fun entry => exec (undoAuthority entry)) session.work.authorityUndo
      session.recalled = (outcome, machine)) :
    exec replayUndo session = (outcome, ⟨machine, session.work⟩) := by
  unfold Session.recalled withPending at replayed
  unfold replayUndo modifyMachine
  simp only [exec_modify_bind, exec_get_bind, exec_attempt, replayed]

/-- The journals of revisions, activations and results complete what the positional log left. -/
theorem Undoable.rewound {start last : Session V S}
    (undoable : Undoable initial session.machine session.work.logs)
    (back : Agree Covered.nothing start.machine initial)
    (activations : start.machine.effectActivations = session.machine.effectActivations)
    (results : start.machine.transientEffectResults = session.machine.transientEffectResults)
    (revisions : start.machine.revisionOf = session.machine.revisionOf)
    (revised : Revised start session.work.listRevisionUndo.toList last) :
    Rewound initial { last.machine with
      effectActivations := restoreEntries session.work.effectActivationUndo.toList
        last.machine.effectActivations
      transientEffectResults := restoreEntries session.work.transientEffectResultUndo.toList
        last.machine.transientEffectResults } := by
  obtain ⟨lists, rfl, lookup⟩ := revised
  have recalled := undoable.revisions.recall_eq
  refine ⟨{ back with lists := fun id => ?_ }, ?_, ?_, ?_⟩
  · have agree := back.lists id
    change Option.Rel _ lists[id]? _
    rw [lookup]
    cases found : start.machine.lists[id]? with
    | none => rwa [found] at agree
    | some =>
      rw [found] at agree
      generalize initial.lists[id]? = origin at agree
      cases agree with
      | some agree => exact .some { agree with }
  · funext id
    have before := congrFun revisions id
    rw [← congrFun recalled id]
    unfold remembered
    rw [← before]
    unfold revisionOf
    change (lists[id]?.map _).getD 0 = session.work.listRevisionUndo[id]?.getD _
    rw [lookup]
    simp only [lastWritten_toList]
    cases found : start.machine.lists[id]? with
    | some => rfl
    | none =>
      have absent : id ∉ session.work.listRevisionUndo := by
        intro noted
        obtain ⟨origin, present⟩ := mem_iff_exists.mp (undoable.revised id noted)
        obtain ⟨_, present, _⟩ := back.list_of_right present
        rw [found] at present
        cases present
      rw [getElem?_eq_none absent]
      rfl
  · apply ext_getElem?
    intro key
    have recalled := congrFun undoable.activations.recall_eq key
    rw [← recalled, ← activations]
    exact getElem?_restoreEntries_journal
  · apply ext_getElem?
    intro key
    have recalled := congrFun undoable.results.recall_eq key
    rw [← recalled, ← results]
    exact getElem?_restoreEntries_journal

variable (plan) in
/-- The rollback of a turn that can be taken back succeeds.  It leaves the state the turn began
with, except for activations of missing rows and for what the logs of pending calls say. -/
theorem wp_rollbackTurn (fallen : Fallen initial session) (wellFormed : initial.WellFormed) :
    wp (rollbackTurn plan) (fun _ => False) (fun _ after =>
      ∃ restored : MachineInstance V S,
        restored.turnState = initial.turnState.withPending
          (restorePending session.work session.machine.pendingTransientEffects) ∧
        after.machine = { restored.rebound plan with
          effectActivations := initial.attachedActivations }) session := by
  obtain ⟨undoable, sound⟩ := fallen
  generalize started : session.recalled = start
  have similar : Similar session.work.logs.covered start session.machine := by
    subst started
    exact ⟨.of_authority_eq rfl, sound⟩
  obtain ⟨undone, replayed, back⟩ := undoable.rewinds _ similar
  have beside : Beside start undone := by
    have frame : Beside start (replay _ session.work.logs.authorityUndo start).2 :=
      beside_runAll session.work.logs.authorityUndo.reverse
    rwa [replayed] at frame
  have known : ∀ entry ∈ session.work.listRevisionUndo.toList, entry.1 ∈ undone.lists := by
    intro entry member
    have noted := mem_iff_exists.mpr ⟨entry.2, mem_toList_iff.mp member⟩
    obtain ⟨origin, present⟩ := mem_iff_exists.mp (undoable.revised entry.1 noted)
    obtain ⟨list, found, _⟩ := back.agree.list_of_right present
    exact mem_iff_exists.mpr ⟨list, found⟩
  subst started
  have effects := beside.effects
  simp only [MachineInstance.effects, Prod.mk.injEq] at effects
  obtain ⟨activations, results, pending, _⟩ := effects
  have backed : exec replayUndo ⟨session.machine, { session.work with enforceWorkLimit := false }⟩ =
      _ := exec_replayUndo replayed
  unfold rollbackTurn modifyWork
  rw [wp_bind, wp_modify, wp_bind]
  apply wp_of_exec backed
  rw [wp_bind, wp_get]
  apply (wp_restoreListRevisions known).bind
  intro _ last revised
  have rewound := undoable.rewound back.agree activations results beside.revisions revised
  obtain ⟨lists, rfl, _⟩ := revised
  unfold restoreEffects modifyMachine
  rw [wp_bind, wp_modify, wp_bind, wp_modify]
  apply (wp_rebuildRuntimeStateAfterRollback rfl _ _).bind
  · rintro _ after ⟨middle, repartitioned, rebound⟩
    have restored := rewound.turnState_of_repartitioned wellFormed repartitioned
    have state : after.machine.turnState =
        initial.turnState.withPending undone.pendingTransientEffects := by
      rw [rebound, turnState_rebound]
      exact restored
    have filtered : (after.machine.effectActivations.filter fun consumer _ =>
        consumer.row.all fun row => (after.machine.row? row).isSome) =
          initial.attachedActivations := by
      have rows := isSome_row?_of_turnState
        (show after.machine.turnState.lists = initial.turnState.lists by rw [state]; rfl)
      have kept : after.machine.effectActivations = initial.effectActivations :=
        congrArg TurnState.effectActivations state
      unfold attachedActivations
      rw [kept]
      simp only [rows]
    unfold rebuildActiveEffectDependencies modifyMachine
    rw [wp_modify]
    refine ⟨middle.machine, restored.trans (congrArg _ pending), ?_⟩
    dsimp only
    rw [filtered, rebound]
  · intro id list found
    obtain ⟨origin, present, agree, _⟩ := rewound.list found
    exact ⟨_, rebuildOwnerPartitions_of_agree (wellFormed.lists present) agree⟩
  · exact rewound.ordered wellFormed

end Rollback

end BoonCircuit.Executor
