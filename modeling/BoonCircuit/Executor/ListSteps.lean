import BoonCircuit.Executor.EffectSteps

/-!
# Steps on roots, rows and lists

Writes of roots and row fields are noted before they happen.  Appending, removing
and reordering rows change a list and note the patch that takes the change back.
-/

namespace BoonCircuit.Executor

open Lib Checks Action MachineInstance BTreeMap ListState Option

variable {V S : Type} [RuntimeValue V] {id : RowId}

section Inside

variable {machine : MachineInstance V S} {covered : Covered V} {listId : ListId} {row : RowId}
  {change : ListState V → ListState V} {edit : Row V → Row V}

theorem MachineInstance.getElem?_modifyList {id : ListId} :
    (machine.modifyList listId change).lists[id]? =
      if listId = id then machine.lists[id]?.map change else machine.lists[id]? :=
  getElem?_modify

theorem Agree.modifyList (agree : ∀ list, ListAgree covered.rowFields (change list) list) :
    Agree covered (machine.modifyList listId change) machine where
  rootStates _ _ := rfl
  touchedRootStates _ _ := .rfl
  lists id := by
    rw [getElem?_modifyList]
    split
    · cases machine.lists[id]? with
      | none => exact .none
      | some list => exact .some (agree list)
    · exact optionRel_refl ListAgree.refl _
  touchedLists _ _ := .rfl
  touchedRowFields _ _ := .rfl
  collections _ _ := rfl
  producers _ _ := rfl

theorem Agree.modifyRow (agree : ∀ content, RowAgree covered.rowFields row (edit content) content) :
    Agree covered (machine.modifyRow row edit) machine := by
  apply Agree.modifyList
  intro list
  refine ⟨rfl, rfl, rfl, rfl, fun id => ?_⟩
  rw [getElem?_modify]
  split
  · next same =>
      subst same
      cases list.rows[row]? with
      | none => exact .none
      | some content => exact .some (agree content)
  · exact optionRel_refl (RowAgree.refl id) _

theorem MachineInstance.row?_modifyList
    (rows : ∀ list, (change list).rows[id]?.isSome = list.rows[id]?.isSome) :
    ((machine.modifyList listId change).row? id).isSome = (machine.row? id).isSome := by
  unfold row?
  rw [getElem?_modifyList]
  split
  · cases machine.lists[id.list]? with
    | none => rfl
    | some list => exact rows list
  · rfl

theorem MachineInstance.WellFormed.modifyList (wellFormed : machine.WellFormed)
    (order : ∀ list, (change list).order = list.order)
    (partitions : ∀ list, (change list).ownerPartitions = list.ownerPartitions)
    (filing : ∀ list id, (change list).filingOf id = list.filingOf id) :
    (machine.modifyList listId change).WellFormed where
  lists {id list} found := by
    rw [getElem?_modifyList] at found
    split at found
    · obtain ⟨before, present, rfl⟩ := map_eq_some_iff.mp found
      exact (wellFormed.lists present).congr (congrArg _ (order before)) (partitions before)
        (filing before)
    · exact wellFormed.lists found
  touched {entry} member := by
    rw [row?_modifyList]
    · exact wellFormed.touched member
    · intro list
      have same := congrArg isSome (filing list entry.row)
      simpa only [filingOf, isSome_map] using same

theorem MachineInstance.WellFormed.modifyRow (wellFormed : machine.WellFormed)
    (keeps : ∀ content, (edit content).ownerAncestry = content.ownerAncestry ∧
      (edit content).materializationOrigin = content.materializationOrigin) :
    (machine.modifyRow row edit).WellFormed :=
  wellFormed.modifyList (fun _ => rfl) (fun _ => rfl) fun _ _ => filingOf_modify keeps

theorem MachineInstance.revisionOf_modifyRow :
    (machine.modifyRow row edit).revisionOf = machine.revisionOf := by
  funext id
  unfold revisionOf modifyRow
  rw [getElem?_modifyList]
  split
  · cases machine.lists[id]? <;> rfl
  · rfl

end Inside

section Steps

variable {initial : MachineInstance V S} {before : Session V S} {listId : ListId} {row : RowId}
  {field : FieldId}

/-- What giving a list a revision does. -/
structure Marked (listId : ListId) (before after : Session V S) : Prop where
  machine : ∃ revise : UInt64 → UInt64, after.machine = before.machine.modifyList listId fun list =>
    { list with revision := revise list.revision }
  covered : after.work.logs.covered = before.work.logs.covered
  calls : after.calls = before.calls

theorem Marked.wellFormed {after : Session V S} (marked : Marked listId before after)
    (wellFormed : before.machine.WellFormed) : after.machine.WellFormed := by
  obtain ⟨_, same⟩ := marked.machine
  rw [same]
  exact wellFormed.modifyList (fun _ => rfl) (fun _ => rfl) fun _ _ => rfl

theorem wp_markListSemanticChange (fallen : Fallen initial before) :
    wp (markListSemanticChange listId) (Fallen initial)
      (fun _ after => Fallen initial after ∧ Marked listId before after) before := by
  unfold markListSemanticChange listOf modifyMachine modifyWork
  simp only [wp_bind, wp_get]
  split
  · simp only [wp_bind, wp_get, wp_attempt_of_failed fallen, okOr_eq_ok_iff]
    intro revision _ list found
    refine ⟨?_, ⟨fun _ => revision, rfl⟩, rfl, rfl⟩
    have known : listId ∈ initial.lists :=
      (fallen.undoable.listIds listId).mp (mem_iff_exists.mpr ⟨list, found⟩)
    have current : before.machine.revisionOf listId = list.revision := by
      unfold revisionOf
      rw [found]
      rfl
    refine ⟨?_, fallen.sound.modifyList fun _ sound => sound.congr rfl fun _ => rfl⟩
    replace fallen := fallen.undoable
    exact {
      rewinds := fallen.rewinds_agree (Agree.modifyList fun _ =>
        ⟨rfl, rfl, rfl, rfl, fun id => optionRel_refl (RowAgree.refl id) _⟩)
      listIds := fun id => by
        rw [← fallen.listIds, mem_iff_exists, mem_iff_exists]
        rw [getElem?_modifyList]
        split
        · cases before.machine.lists[id]? <;> simp
        · exact Iff.rfl
      revised := fun id member => by
        change id ∈ journalize before.work.listRevisionUndo listId list.revision at member
        unfold journalize at member
        split at member
        · exact fallen.revised id member
        · rcases mem_insert.mp member with rfl | member
          · exact known
          · exact fallen.revised id member
      revisions := by
        rw [← current]
        apply fallen.revisions.journalize
        intro other apart
        unfold revisionOf
        rw [getElem?_modifyList, if_neg (Ne.symm apart)]
      activations := fallen.activations
      results := fallen.results
      pending := fallen.pending
      numbered := fallen.numbered.of_same rfl rfl rfl rfl
      attached := fun old present => by
        obtain ⟨earlier, rows⟩ := fallen.attached old present
        refine ⟨earlier, fun row member known => ?_⟩
        refine (row?_modifyList ?_).trans (rows row member known)
        exact fun _ => rfl }
  · have same : before.machine.lists = before.machine.lists.modify listId fun list =>
        { list with revision := id list.revision } := by
      apply Std.ExtTreeMap.ext_getElem?
      intro other
      rw [getElem?_modify]
      split
      · cases before.machine.lists[other]? <;> rfl
      · rfl
    refine ⟨fallen, ⟨id, ?_⟩, rfl, rfl⟩
    unfold modifyList
    rw [← same]

variable {root : StateId} {value : V} {list next : ListState V} {plan : Plan V S}
  {logs : UndoLogs V S} {machine : MachineInstance V S} {values : List (FieldId × Except Error V)}
  {patch : SourceOrderPatch} {orderedRows : List RowId} {scope : Option ScopeId} {cost : UInt64}

theorem wp_recordRootUndo (inTurn : InTurn initial before) :
    wp (recordRootUndo root) (Fallen initial) (fun _ after =>
      (InTurn initial after ∧ Steady before after) ∧ root ∈ after.work.undoRootStates) before := by
  unfold recordRootUndo
  rw [wp_modify]
  split
  · next covers => exact ⟨⟨inTurn, .refl before⟩, covers⟩
  · refine ⟨⟨⟨?_, inTurn.wellFormed⟩, rfl, rfl, rfl, id, rfl⟩, BTreeSet.mem_insert.mpr (.inl rfl)⟩
    exact inTurn.undoable.note (fun _ similar => undo_rootState similar) rfl (fun _ => .rfl) rfl
      fun _ _ _ => id

theorem InTurn.changeRoot {roots : BTreeMap StateId (PrivatePresence V)}
    {touched : BTreeSet StateId} (inTurn : InTurn initial before)
    (covers : root ∈ before.work.undoRootStates)
    (elsewhere : ∀ other, other ≠ root → roots[other]? = before.machine.rootStates[other]?)
    (untouched : ∀ other, other ≠ root →
      (other ∈ touched ↔ other ∈ before.machine.touchedRootStates)) :
    InTurn initial { before with machine := { before.machine with
      rootStates := roots, touchedRootStates := touched } } := by
  refine ⟨?_, inTurn.wellFormed.lists, inTurn.wellFormed.touched⟩
  refine inTurn.undoable.unlogged { Agree.refl before.machine with
    rootStates := fun other free => elsewhere other ?_
    touchedRootStates := fun other free => untouched other ?_ } rfl rfl
  · rintro rfl
    exact free covers
  · rintro rfl
    exact free covers

theorem keeps_writeRootState (inTurn : InTurn initial before) :
    Keeps initial (writeRootState root value) before := by
  apply (wp_recordRootUndo inTurn).bind
  rintro _ session ⟨⟨inTurn, steady⟩, covers⟩
  have touched : ∀ other, other ≠ root → (other ∈ session.machine.touchedRootStates.insert root ↔
      other ∈ session.machine.touchedRootStates) := by
    intro other apart
    rw [BTreeSet.mem_insert, or_iff_right apart]
  have roots : ∀ other, other ≠ root →
      (session.machine.rootStates.insert root (.present value))[other]? =
        session.machine.rootStates[other]? := by
    intro other apart
    rw [getElem?_insert, if_neg (Ne.symm apart)]
  have marked := inTurn.changeRoot covers (fun _ _ => rfl) touched
  have changed := inTurn.changeRoot covers roots touched
  unfold setRootState modifyMachine pushDelta modifyWork
  simp only [wp_bind, wp_get, wp_modify]
  split
  · simp only [wp_pure]
    split
    · exact ⟨⟨marked.undoable, marked.wellFormed⟩, steady.trans ⟨rfl, rfl, rfl, id, rfl⟩⟩
    · exact ⟨marked, steady.trans ⟨rfl, rfl, rfl, id, rfl⟩⟩
  · simp only [wp_bind, wp_modify, wp_pure]
    split
    · exact ⟨⟨changed.undoable, changed.wellFormed⟩, steady.trans ⟨rfl, rfl, rfl, id, rfl⟩⟩
    · exact ⟨changed, steady.trans ⟨rfl, rfl, rfl, id, rfl⟩⟩

/-- The field may be written without a further note. -/
def Writable (session : Session V S) (row : RowId) (field : FieldId) : Prop :=
  session.work.logs.covered.rowFields ⟨row, field⟩

theorem wp_setRowField (inTurn : InTurn initial before) (writable : Writable before row field) :
    wp (setRowField row field value) (Fallen initial)
      (fun _ after => (InTurn initial after ∧ after.calls = before.calls) ∧
        after.work.logs.covered = before.work.logs.covered) before := by
  unfold setRowField
  rw [wp_bind, wp_get]
  split
  · exact ⟨⟨inTurn, rfl⟩, rfl⟩
  · apply (wp_markListSemanticChange inTurn.fallen).bind
    rintro _ after ⟨fallen, marked⟩
    rw [wp_bind, wp_attempt_of_failed fallen]
    intro content _
    refine ⟨⟨⟨?_, (marked.wellFormed inTurn.wellFormed).modifyRow fun _ => ⟨rfl, rfl⟩⟩,
      marked.calls⟩, marked.covered⟩
    refine fallen.undoable.unlogged
      (Agree.modifyRow fun content => ⟨rfl, rfl, fun other free => ?_⟩) rfl
      revisionOf_modifyRow
    rw [getElem?_insert, if_neg]
    rintro rfl
    exact free (marked.covered.symm ▸ writable)

theorem wp_setRowField_missing (fallen : Fallen initial before)
    (missing : before.machine.row? row = none) :
    wp (setRowField row field value) (Fallen initial) (fun _ _ => False) before := by
  unfold setRowField
  rw [wp_bind, wp_get, missing]
  apply (wp_markListSemanticChange fallen).bind
  rintro _ _ ⟨fallen, _⟩
  rw [wp_bind, wp_attempt]
  exact ⟨fun _ found => (nomatch found), fun _ _ => fallen⟩

theorem wp_recordRowFieldUndo (inTurn : InTurn initial before)
    (noted : (before.machine.row? row).isSome ∨ ⟨row, field⟩ ∈ before.work.undoRowFields) :
    wp (recordRowFieldUndo row field) (Fallen initial) (fun _ after =>
      (InTurn initial after ∧ after.calls = before.calls) ∧ Writable after row field) before := by
  unfold recordRowFieldUndo
  rw [wp_modify]
  split
  · next covers => exact ⟨⟨inTurn, rfl⟩, .inr covers⟩
  · next uncovered =>
      obtain ⟨_, found⟩ := isSome_iff_exists.mp (noted.resolve_right uncovered)
      refine ⟨⟨⟨?_, inTurn.wellFormed⟩, rfl⟩, .inr (BTreeSet.mem_insert.mpr (.inl rfl))⟩
      rw [found]
      apply inTurn.undoable.note _ rfl (fun _ => .rfl) rfl fun _ _ _ => id
      intro state similar
      apply undo_rowField inTurn.wellFormed found
      exact similar

theorem wp_writeRowField {touch : Bool} (inTurn : InTurn initial before)
    (noted : (before.machine.row? row).isSome ∨ ⟨row, field⟩ ∈ before.work.undoRowFields) :
    Stays initial (writeRowField row field value touch) before := by
  apply (wp_recordRowFieldUndo inTurn noted).bind
  rintro _ session ⟨⟨inTurn, calls⟩, writable⟩
  rw [wp_bind, wp_get]
  -- The mark goes to a covered entry, so the turn can be taken back in either case.
  have marked : Fallen initial { session with machine := { session.machine with
      touchedRowFields := session.machine.touchedRowFields.insert ⟨row, field⟩ } } := by
    refine ⟨?_, inTurn.wellFormed.sound⟩
    refine inTurn.undoable.unlogged { Agree.refl session.machine with
      touchedRowFields := fun other free => ?_ } rfl rfl
    rw [BTreeSet.mem_insert]
    apply or_iff_right
    rintro rfl
    exact free writable
  have reported : ∀ (condition : Bool) after, InTurn initial after → after.calls = before.calls →
      wp (if condition then do
          let found ← attempt (okOr (session.machine.row? row) (.invalidPlan
            ("row " ++ row.text ++ " has no structural owner")))
          pushDelta (.setRowField row found.ownerAncestry found.materializationOrigin field value)
        else pure ()) (Fallen initial)
        (fun _ after => InTurn initial after ∧ after.calls = before.calls) after := by
    intro condition after inTurn same
    split
    · rw [wp_bind, wp_attempt_of_failed inTurn.fallen]
      exact fun _ _ => ⟨⟨inTurn.undoable, inTurn.wellFormed⟩, same⟩
    · exact ⟨inTurn, same⟩
  rw [wp_bind, wp_onlyIf]
  constructor
  · intro _
    unfold modifyMachine
    rw [wp_modify, wp_bind]
    cases found : session.machine.row? row with
    | none =>
      apply (wp_setRowField_missing marked found).weaken
      exact fun _ _ impossible => impossible.elim
    | some content =>
      have touched : InTurn initial { session with machine := { session.machine with
          touchedRowFields := session.machine.touchedRowFields.insert ⟨row, field⟩ } } := by
        refine ⟨marked.undoable, inTurn.wellFormed.lists, fun {entry} member => ?_⟩
        rcases BTreeSet.mem_insert.mp member with rfl | member
        · exact isSome_iff_exists.mpr ⟨content, found⟩
        · exact inTurn.wellFormed.touched member
      apply (wp_setRowField touched writable).weaken
      rintro changed after ⟨⟨inTurn, later⟩, _⟩
      exact found ▸ reported _ after inTurn (later.trans calls)
  · intro _
    apply (wp_setRowField inTurn writable).bind
    rintro changed after ⟨⟨inTurn, later⟩, _⟩
    exact reported _ after inTurn (later.trans calls)

theorem MachineInstance.revisionOf_withList (found : machine.lists[listId]? = some list)
    (same : next.revision = list.revision) :
    (machine.withList listId next).revisionOf = machine.revisionOf := by
  funext id
  unfold revisionOf withList
  rw [getElem?_insert]
  split
  · next equal => rw [← equal, found, map_some, map_some, same]
  · rfl

theorem MachineInstance.mem_lists_withList (found : machine.lists[listId]? = some list)
    (id : ListId) : id ∈ (machine.withList listId next).lists ↔ id ∈ machine.lists := by
  unfold withList
  rw [mem_insert]
  apply or_iff_right_of_imp
  rintro rfl
  exact mem_iff_exists.mpr ⟨list, found⟩

theorem MachineInstance.isSome_row?_withList (found : machine.lists[listId]? = some list)
    (kept : id.list = listId → id ∈ list.rows → id ∈ next.rows) (present : (machine.row? id).isSome)
    : ((machine.withList listId next).row? id).isSome := by
  obtain ⟨content, present⟩ := isSome_iff_exists.mp present
  obtain ⟨_, listFound, rowFound⟩ := row?_eq_some_iff.mp present
  unfold row? withList
  rw [getElem?_insert]
  split
  · next same =>
      cases found.symm.trans (same ▸ listFound)
      have member := kept same.symm (mem_iff_exists.mpr ⟨content, rowFound⟩)
      exact Std.ExtTreeMap.mem_iff_isSome_getElem?.mp member
  · rw [listFound, bind_some, rowFound]
    rfl

theorem MachineInstance.WellFormed.withList {touched : BTreeSet RowField}
    (wellFormed : machine.WellFormed) (found : machine.lists[listId]? = some list)
    (listWellFormed : next.WellFormed listId)
    (fewer : ∀ entry ∈ touched, entry ∈ machine.touchedRowFields ∧
      (entry.row.list = listId → entry.row ∈ list.rows → entry.row ∈ next.rows)) :
    { machine.withList listId next with touchedRowFields := touched }.WellFormed where
  lists {id other} present := by
    rcases getElem?_insert_eq_some_iff.mp present with ⟨rfl, rfl⟩ | ⟨_, present⟩
    · exact listWellFormed
    · exact wellFormed.lists present
  touched {entry} member := by
    obtain ⟨known, kept⟩ := fewer entry member
    exact isSome_row?_withList found kept (wellFormed.touched known)

theorem wp_consume {units : UInt64} (fallen : Fallen initial before) :
    wp (consume units) (Fallen initial) (fun _ after => ∃ work, after = { before with work } ∧
      work.logs = before.work.logs) before := by
  unfold consume modifyWork
  simp only [wp_bind, wp_get, wp_attempt]
  exact ⟨fun _ _ => ⟨_, rfl, rfl⟩, fun _ _ => fallen⟩

theorem calls_of_logs {work : Work V S} (sameLogs : work.logs = before.work.logs) :
    { before with work }.calls = before.calls :=
  congrArg (fun logs : UndoLogs V S => (_, _, _, _, logs.staged)) sameLogs

theorem InTurn.bindSource {source : SourceId} (inTurn : InTurn initial before) :
    InTurn initial { before with machine := before.machine.bindSource row source } := by
  have agree : Agree before.work.logs.covered (before.machine.modifyRow row fun state =>
      { state with bindings := state.bindings.insert source before.machine.nextBindingId })
      before.machine :=
    Agree.modifyRow fun _ => ⟨rfl, rfl, fun _ _ => rfl⟩
  have wellFormed : (before.machine.modifyRow row fun state =>
      { state with bindings := state.bindings.insert source before.machine.nextBindingId
        }).WellFormed :=
    inTurn.wellFormed.modifyRow fun _ => ⟨rfl, rfl⟩
  refine ⟨inTurn.undoable.unlogged ?_ rfl revisionOf_modifyRow,
    wellFormed.lists, wellFormed.touched⟩
  exact { agree with }

theorem InTurn.bindSources {sources : List SourceId} (inTurn : InTurn initial before) :
    InTurn initial { before with machine := before.machine.bindSources row sources } ∧
      { before with machine := before.machine.bindSources row sources }.calls = before.calls := by
  induction sources generalizing before with
  | nil => exact ⟨inTurn, rfl⟩
  | cons source sources ih => exact ih inTurn.bindSource

theorem wp_bindRowSources (inTurn : InTurn initial before) :
    Stays initial (bindRowSources plan row scope) before := by
  unfold Stays bindRowSources modifyMachine
  simp only [wp_bind, wp_get, wp_attempt_of_failed inTurn.fallen]
  exact fun _ _ => inTurn.bindSources

theorem wp_announceAppend {touched : Bool} (inTurn : InTurn initial before) :
    Stays initial (announceAppend plan row touched) before := by
  unfold Stays announceAppend listOf
  split
  all_goals
    simp only [wp_bind, wp_get, wp_attempt_of_failed inTurn.fallen]
    intros
    exact ⟨⟨inTurn.undoable, inTurn.wellFormed⟩, rfl⟩

theorem Undoable.appendRow (nextKey : UInt64) {content : Row V}
    (undoable : Undoable initial machine logs) (wellFormed : machine.WellFormed)
    (found : machine.lists[row.list]? = some list)
    (prepared : list.preparePushOrdered row = .ok patch)
    (leaf : content.ownerAncestry.getLast? = some row) :
    Undoable initial (machine.withList row.list
        ((list.appended patch nextKey row content).indexOwnerPartitionRow row).2)
      (logs.note (.appendRow row list.nextKey patch (machine.touchedLists.contains row.list))) := by
  obtain ⟨prepared, _, fresh, _⟩ := preparePushOrdered_eq_ok prepared
  rw [(indexOwnerPartitionRow_spec getElem?_rows_appended leaf).1]
  refine undoable.note (fun state similar => ?_) rfl ?_ ?_ ?_
  · exact undo_appendRow wellFormed found prepared fresh leaf ⟨rfl, rfl, rfl⟩ rfl similar
  · exact mem_lists_withList found
  · exact revisionOf_withList found rfl
  · intro _ _ _ _ _ present
    apply isSome_row?_withList found _ present
    exact fun _ member => mem_insert.mpr (.inr member)

theorem Undoable.touchList (undoable : Undoable initial machine logs)
    (listed : logs.covered.lists listId) :
    Undoable initial { machine with touchedLists := machine.touchedLists.insert listId } logs := by
  refine undoable.unlogged { Agree.refl machine with touchedLists := fun other free => ?_ } rfl rfl
  rw [BTreeSet.mem_insert]
  apply or_iff_right
  rintro rfl
  exact free listed

theorem wp_settleAppendedRow {durable touched : Bool} (inTurn : InTurn initial before)
    (structural : before.work.logs.structural row) :
    Stays initial (settleAppendedRow plan row scope durable touched values) before := by
  apply (wp_markListSemanticChange inTurn.fallen).bind
  rintro _ session ⟨fallen, marked⟩
  have settled : InTurn initial session := ⟨fallen.undoable, marked.wellFormed inTurn.wellFormed⟩
  have writable : ∀ other, session.work.logs.covered.rowFields ⟨row, other⟩ := by
    intro other
    rw [marked.covered]
    exact .inl structural
  have listed : session.work.logs.covered.lists row.list := by
    rw [marked.covered]
    exact ⟨row, structural, rfl⟩
  have filled : ∀ middle, InTurn initial middle →
      middle.work.logs.covered = session.work.logs.covered →
      wp (values.forM fun entry => do
          let value ← attempt entry.2
          let _ ← setRowField row entry.1 value) (Fallen initial)
        (fun _ after => (InTurn initial after ∧ after.calls = middle.calls) ∧
          after.work.logs.covered = session.work.logs.covered) middle := by
    intro middle inTurn covered
    apply wp_forM ⟨⟨inTurn, rfl⟩, covered⟩
    rintro entry _ _ ⟨⟨inTurn, calls⟩, covered⟩
    rw [wp_bind, wp_attempt_of_failed inTurn.fallen]
    intro value _
    apply (wp_setRowField inTurn _).bind
    · rintro _ after ⟨⟨inTurn, later⟩, same⟩
      exact ⟨⟨inTurn, later.trans calls⟩, same.trans covered⟩
    · unfold Writable
      rw [covered]
      exact writable entry.1
  have finished : ∀ middle, InTurn initial middle →
      middle.work.logs.covered = session.work.logs.covered → middle.calls = before.calls →
      wp (do
          values.forM fun entry => do
            let value ← attempt entry.2
            let _ ← setRowField row entry.1 value
          onlyIf durable (announceAppend plan row touched)
          bindRowSources plan row scope) (Fallen initial)
        (fun _ after => InTurn initial after ∧ after.calls = before.calls) middle := by
    intro middle inTurn covered calls
    rw [← calls]
    refine Stays.bind ((filled middle inTurn covered).weaken fun _ _ kept => kept.1) ?_
    intro _ after inTurn
    have announced : Stays initial (onlyIf durable (announceAppend plan row touched)) after :=
      wp_onlyIf.mpr ⟨fun _ => wp_announceAppend inTurn, fun _ => ⟨inTurn, rfl⟩⟩
    exact announced.bind fun _ _ => wp_bindRowSources
  rw [wp_bind, wp_onlyIf]
  refine ⟨fun _ => finished _ ⟨settled.undoable.touchList listed, ?_⟩ rfl marked.calls,
    fun _ => finished _ settled rfl marked.calls⟩
  exact ⟨settled.wellFormed.lists, settled.wellFormed.touched⟩

theorem wp_appendRow {fields : BTreeMap FieldId V} {ownerPrefix : Ancestry}
    {origin : Option Ancestry} (inTurn : InTurn initial before) :
    Stays initial (appendRow plan listId fields ownerPrefix origin values cost) before := by
  unfold Stays appendRow listOf
  simp only [wp_bind, wp_get, wp_attempt_of_failed inTurn.fallen, okOr_eq_ok_iff]
  intro slot _ list found _ _ nextKey _ patch prepared
  apply (wp_consume inTurn.fallen).weaken
  rintro _ _ ⟨work, rfl, sameLogs⟩
  obtain ⟨_, order, fresh, _⟩ := preparePushOrdered_eq_ok prepared
  generalize row_eq : (⟨listId, max list.nextKey 1, 1⟩ : RowId) = row at *
  have home : row.list = listId := row_eq ▸ rfl
  subst home
  have leaf : (⟨ownerPrefix ++ [row], origin, fields, ∅⟩ : Row V).ownerAncestry.getLast? =
    some row := List.getLast?_concat
  have appended := inTurn.undoable.appendRow nextKey inTurn.wellFormed found prepared leaf
  rw [← sameLogs] at appended
  unfold modifyMachine pushUndo modifyWork
  simp only [wp_bind, wp_get, wp_modify, wp_attempt]
  have listWellFormed := inTurn.wellFormed.lists found
  have absent : row ∉ list.rows := fun member => fresh (listWellFormed.mem_order.mpr member)
  refine ⟨fun _ indexed => ?_, fun _ _ => ⟨appended,
    inTurn.wellFormed.sound.withList (listWellFormed.sound.appended absent leaf)⟩⟩
  have wellFormed : (before.machine.withList row.list _).WellFormed :=
    inTurn.wellFormed.withList found
      (listWellFormed.append fresh order rfl leaf indexed) fun _ known => by
        refine ⟨known, fun _ member => ?_⟩
        rw [(indexOwnerPartitionRow_spec getElem?_rows_appended leaf).1]
        exact mem_insert.mpr (.inr member)
  have structural : (work.logs.note (.appendRow row list.nextKey patch
      (before.machine.touchedLists.contains row.list))).structural row :=
    UndoLogs.structural_note.mpr (.inl rfl)
  apply (wp_settleAppendedRow ⟨appended, wellFormed⟩ _).weaken
  · exact fun _ _ kept => ⟨kept.1, kept.2.trans (calls_of_logs sameLogs)⟩
  · exact structural

omit [RuntimeValue V] in
theorem ListState.isPartition_iff {rows : List RowId} :
    list.isPartition rows = true ↔ ∃ first row partition, rows.head? = some first ∧
      list.rows[first]? = some row ∧
      list.ownerPartitions[ListState.ownerPrefix row]? = some partition ∧
      partition.order.Perm rows := by
  unfold isPartition
  cases rows.head? with
  | none => simp
  | some => simp [any_eq_true, List.isPerm_iff]

/-- The new order of a partition can be taken back. -/
theorem Undoable.reorderRows (orderedRows : List RowId) {owner : Ancestry}
    {partition : OwnerPartition}
    (undoable : Undoable initial machine logs) (wellFormed : machine.WellFormed)
    (found : machine.lists[listId]? = some list) (prepared : patch.Prepared list)
    (filed : list.ownerPartitions[owner]? = some partition) :
    Undoable initial (machine.withList listId (list.reordered patch owner orderedRows))
      (logs.note (.reorderRows listId patch (some (owner, partition.order)))) := by
  refine undoable.note (fun state similar => ?_) rfl ?_ ?_ ?_
  · apply undo_reorderRows wellFormed found prepared _ _ _ filed similar
    · exact ⟨rfl, rfl, rfl⟩
    · rfl
    · rfl
  · exact mem_lists_withList found
  · exact revisionOf_withList found rfl
  · exact fun _ _ _ => isSome_row?_withList found fun _ => id

theorem wp_setMaterializedPartitionOrder {index : Nat}
    (inTurn : InTurn initial before) (found : before.machine.lists[listId]? = some list)
    (whole : list.isPartition orderedRows = true) :
    Stays initial (setMaterializedPartitionOrder listId index orderedRows cost) before := by
  obtain ⟨_, row, partition, head, rowFound, filed, perm⟩ := isPartition_iff.mp whole
  have listWellFormed := inTurn.wellFormed.lists found
  unfold Stays setMaterializedPartitionOrder listOf
  simp only [wp_bind, wp_get, wp_attempt_of_failed inTurn.fallen, okOr_eq_ok_iff]
  intro state present patch prepared
  cases found.symm.trans present
  cases patch with
  | none => exact ⟨inTurn, rfl⟩
  | some patch =>
    obtain ⟨patched, _, _, rest, order, moved, _⟩ :=
      prepareReorderRows_eq_ok listWellFormed.nodup prepared
    have under : orderedRows.Perm (list.rowsUnder list.order.rows (ownerPrefix row)) := by
      rw [← listWellFormed.partitions.order, partitionOf_eq filed]
      exact perm.symm
    have wellFormed := inTurn.wellFormed.withList found
      (listWellFormed.reorder under rest order moved) fun _ known => ⟨known, fun _ => id⟩
    have owners : list.materializedPartition orderedRows =
        .ok (some (ownerPrefix row, partition.order)) := by
      unfold materializedPartition
      rw [head, mapM_some, rowFound]
      change some <$> (okOr list.ownerPartitions[ownerPrefix row]? _ >>= _) = _
      rw [filed]
      rfl
    rw [owners]
    have reordered : Stays initial (do
        consume cost
        modifyMachine fun machine => { machine with
          lists := machine.lists.insert listId
            (list.reordered patch (ownerPrefix row) orderedRows) }
        pushUndo (.reorderRows listId patch (some (ownerPrefix row, partition.order)))
        markListSemanticChange listId
        pure true) before := by
      apply (wp_consume inTurn.fallen).bind
      rintro _ _ ⟨_, rfl, sameLogs⟩
      have undoable := inTurn.undoable.reorderRows orderedRows inTurn.wellFormed found patched filed
      rw [← sameLogs] at undoable
      unfold modifyMachine pushUndo modifyWork
      simp only [wp_bind, wp_modify]
      apply (wp_markListSemanticChange _).weaken
      · rintro _ _ ⟨fallen, marked⟩
        exact ⟨⟨fallen.undoable, marked.wellFormed wellFormed⟩,
          marked.calls.trans (calls_of_logs sameLogs)⟩
      · exact ⟨undoable, wellFormed.sound⟩
    simp only [wp_bind, wp_attempt, wp_get, wp_onlyIf]
    constructor
    · rintro _ ⟨⟩
      refine ⟨fun _ => ⟨fun _ _ => ?_, fun _ _ => inTurn.fallen⟩, fun _ => ?_⟩
      · rw [← wp_bind]
        exact reordered
      · rw [← wp_bind]
        exact reordered
    · rintro _ ⟨⟩

end Steps

end BoonCircuit.Executor
