import BoonCircuit.Executor.OrderEdits
import BoonCircuit.Executor.Similarity

/-!
# What one undo entry takes back

Each entry of the positional log leads from any machine that resembles the one
after its mutation to one that resembles the machine before it.
-/

namespace BoonCircuit.Executor

open Lib Checks BTreeMap MachineInstance Action ListState

variable {V S : Type} [RuntimeValue V]

section Restore

variable {κ ν : Type} [Ord κ] [Std.TransOrd κ] [Std.LawfulEqOrd κ]

variable {other : κ}

theorem getElem?_putOrErase [DecidableEq κ] {map before : BTreeMap κ ν} {key : κ}
    (elsewhere : other ≠ key → map[other]? = before[other]?) :
    (putOrErase map key before[key]?)[other]? = before[other]? := by
  unfold putOrErase
  by_cases same : other = key
  · subst same
    cases before[other]? <;> simp
  · have apart : ¬key = other := fun equal => same equal.symm
    rw [← elsewhere same]
    cases before[key]? with
    | none => exact getElem?_erase.trans (if_neg apart)
    | some => exact getElem?_insert.trans (if_neg apart)

theorem mem_setMember {set before : BTreeSet κ} {member : κ}
    (elsewhere : other ≠ member → (other ∈ set ↔ other ∈ before)) :
    other ∈ setMember set member (before.contains member) ↔ other ∈ before := by
  unfold setMember
  by_cases same : other = member
  · subst same
    cases present : before.contains other <;> simp [← Std.ExtTreeSet.contains_iff_mem, present]
  · have apart : ¬member = other := fun equal => same equal.symm
    cases before.contains member <;> simp [apart, elsewhere same]

end Restore

namespace Covered

variable (covered : Covered V)

def addRoot (root : StateId) : Covered V :=
  { covered with roots := fun other => other = root ∨ covered.roots other }

def addRowField (entry : RowField) : Covered V :=
  { covered with rowFields := fun other => other = entry ∨ covered.rowFields other }

/-- A structural change of a list covers the row it adds or removes. -/
def addRow (row : RowId) : Covered V :=
  { covered with
    rowFields := fun other => other.row = row ∨ covered.rowFields other
    lists := fun other => other = row.list ∨ covered.lists other }

def addCollection (address : CollectionAuthorityAddress V) : Covered V :=
  { covered with collections := fun other => other = address ∨ covered.collections other }

def addProducer (site : CollectionProducerSite V) : Covered V :=
  { covered with producers := fun other => other = site ∨ covered.producers other }

end Covered

variable {covered : Covered V} {state current : MachineInstance V S}

theorem undo_rootState {root : StateId} (similar : Similar (covered.addRoot root) state current) :
    ∃ previous, exec (undoAuthority (.rootState root current.rootStates[root]?
        (current.touchedRootStates.contains root))) state = (.ok (), previous) ∧
      Similar covered previous current := by
  refine ⟨_, rfl, { similar.agree with rootStates := ?_, touchedRootStates := ?_ }, similar.sound⟩
  · intro other free
    apply getElem?_putOrErase
    exact fun apart => similar.agree.rootStates other (not_or.mpr ⟨apart, free⟩)
  · intro other free
    apply mem_setMember
    exact fun apart => similar.agree.touchedRootStates other (not_or.mpr ⟨apart, free⟩)

theorem undo_collection {address : CollectionAuthorityAddress V}
    (similar : Similar (covered.addCollection address) state current) :
    ∃ previous, exec (undoAuthority (.collection address
        current.collectionAuthorities[address]?)) state = (.ok (), previous) ∧
      Similar covered previous current := by
  refine ⟨_, rfl, { similar.agree with collections := ?_ }, similar.sound⟩
  intro other free
  apply getElem?_putOrErase
  exact fun apart => similar.agree.collections other (not_or.mpr ⟨apart, free⟩)

theorem undo_collectionProducer {site : CollectionProducerSite V}
    (similar : Similar (covered.addProducer site) state current) :
    ∃ previous, exec (undoAuthority (.collectionProducer site
        current.collectionProducers[site]?)) state = (.ok (), previous) ∧
      Similar covered previous current := by
  refine ⟨_, rfl, { similar.agree with producers := ?_ }, similar.sound⟩
  intro other free
  apply getElem?_putOrErase
  exact fun apart => similar.agree.producers other (not_or.mpr ⟨apart, free⟩)

variable {α : Type} {machine : MachineInstance V S} {content : Row V} {list next : ListState V}
  {listId : ListId} {patch : SourceOrderPatch}

variable {β : Type} {Related : α → β → Prop} {left : Option α} {right : Option β}
  {change : Row V → Row V} {owner : Ancestry} {partition : OwnerPartition}

theorem optionRel_map_left {γ : Type} {After : γ → β → Prop}
    {change : α → γ} (related : Option.Rel Related left right)
    (step : ∀ {first second}, left = some first → right = some second → Related first second →
      After (change first) second) : Option.Rel After (left.map change) right := by
  cases related with
  | none => exact .none
  | some related => exact .some (step rfl rfl related)

theorem optionRel_mono {After : α → β → Prop} (related : Option.Rel Related left right)
    (weaker : ∀ {first second}, right = some second → Related first second → After first second) :
    Option.Rel After left right := by
  cases related with
  | none => exact .none
  | some related => exact .some (weaker rfl related)

theorem MachineInstance.row?_eq_some_iff {row : RowId} : machine.row? row = some content ↔
      ∃ list, machine.lists[row.list]? = some list ∧ list.rows[row]? = some content :=
  Option.bind_eq_some_iff

theorem Agree.row?_of_right {left right : MachineInstance V S} {row : RowId}
    (agree : Agree covered left right) (found : right.row? row = some content) :
    ∃ other, left.row? row = some other ∧ RowAgree covered.rowFields row other content := by
  obtain ⟨_, listFound, rowFound⟩ := row?_eq_some_iff.mp found
  obtain ⟨otherList, otherFound, listAgree⟩ := agree.list_of_right listFound
  obtain ⟨other, present, rowAgree⟩ := listAgree.row_of_right rowFound
  exact ⟨other, row?_eq_some_iff.mpr ⟨otherList, otherFound, present⟩, rowAgree⟩

omit [RuntimeValue V] in
theorem ListState.PartitionsSound.congr {other : ListState V} (sound : list.PartitionsSound)
    (partitions : other.ownerPartitions = list.ownerPartitions)
    (filing : ∀ id, other.filingOf id = list.filingOf id) : other.PartitionsSound where
  filed {id row} found := by
    obtain ⟨same, present, ancestry, _⟩ := row_of_filingOf filing found
    rw [partitions, ownerPrefix, ← ancestry]
    exact sound.filed present
  origin {owner partition origin id} found indexed := by
    obtain ⟨row, present, owns, known⟩ := sound.origin (partitions ▸ found) indexed
    obtain ⟨same, again, ancestry, origins⟩ := row_of_filingOf (fun id => (filing id).symm) present
    refine ⟨same, again, ?_, origins.trans known⟩
    rw [← owns, ownerPrefix, ownerPrefix, ancestry]

omit [RuntimeValue V] in
theorem ListState.filingOf_modify {row id : RowId}
    (keeps : ∀ content, (change content).ownerAncestry = content.ownerAncestry ∧
      (change content).materializationOrigin = content.materializationOrigin) :
    filingOf { list with rows := list.rows.modify row change } id = list.filingOf id := by
  unfold filingOf
  rw [getElem?_modify]
  split
  · rw [Option.map_map]
    congr 1
    funext content
    simp only [Function.comp, keeps content]
  · rfl

theorem MachineInstance.Sound.modifyList {change : ListState V → ListState V}
    (sound : machine.Sound)
    (keeps : ∀ list : ListState V, list.PartitionsSound → (change list).PartitionsSound) :
    (machine.modifyList listId change).Sound := by
  intro id list found
  unfold MachineInstance.modifyList at found
  rw [getElem?_modify] at found
  split at found
  · obtain ⟨before, present, rfl⟩ := Option.map_eq_some_iff.mp found
    exact keeps before (sound present)
  · exact sound found

theorem MachineInstance.Sound.modifyRow {row : RowId} (sound : machine.Sound)
    (keeps : ∀ content, (change content).ownerAncestry = content.ownerAncestry ∧
      (change content).materializationOrigin = content.materializationOrigin) :
    (machine.modifyRow row change).Sound := by
  apply sound.modifyList
  intro list listSound
  exact listSound.congr rfl fun id => filingOf_modify keeps

section Fields

variable {coveredFields : RowField → Prop} {row id : RowId} {field : FieldId}

variable {wider : RowField → Prop} {left right : Row V}

omit [RuntimeValue V] in
theorem RowAgree.weaken (agree : RowAgree wider id left right)
    (free : ∀ field, wider ⟨id, field⟩ → coveredFields ⟨id, field⟩) :
    RowAgree coveredFields id left right := { agree with
  fields field uncovered := agree.fields field fun covers => uncovered (free field covers) }

omit [RuntimeValue V] in
theorem RowAgree.restore
    (agree : RowAgree (fun other => other = ⟨row, field⟩ ∨ coveredFields other) row left right) :
    RowAgree coveredFields row
      { left with fields := putOrErase left.fields field right.fields[field]? } right :=
  { agree with
  fields other free := getElem?_putOrErase fun apart => by
    apply agree.fields
    rintro (same | covers)
    · cases same
      exact apart rfl
    · exact free covers }

omit [RuntimeValue V] in
theorem ListAgree.weaken {left right : ListState V} (agree : ListAgree wider left right)
    (free : ∀ {id : RowId} {field : FieldId}, id ∈ right.rows → wider ⟨id, field⟩ →
      coveredFields ⟨id, field⟩) : ListAgree coveredFields left right := { agree with
  rows id := by
    apply optionRel_mono (agree.rows id)
    intro first second found rowAgree
    exact rowAgree.weaken fun field => free (mem_iff_exists.mpr ⟨second, found⟩) }

omit [RuntimeValue V] in
theorem ListAgree.restore {left right : ListState V}
    (found : right.rows[row]? = some content)
    (agree : ListAgree (fun other => other = ⟨row, field⟩ ∨ coveredFields other) left right) :
    ListAgree coveredFields { left with rows := left.rows.modify row fun before =>
      { before with fields := putOrErase before.fields field content.fields[field]? } } right :=
  { agree with
  rows id := by
    rw [getElem?_modify]
    split
    · next same =>
        subst same
        apply optionRel_map_left (agree.rows row)
        intro first second _ here rowAgree
        rw [found] at here
        cases here
        exact rowAgree.restore
    · next apart =>
        apply optionRel_mono (agree.rows id)
        intro first second _ rowAgree
        apply rowAgree.weaken
        rintro other (same | covers)
        · cases same
          exact absurd rfl apart
        · exact covers }

end Fields

theorem undo_rowField {row : RowId} {field : FieldId}
    (wellFormed : current.WellFormed) (found : current.row? row = some content)
    (similar : Similar (covered.addRowField ⟨row, field⟩) state current) :
    ∃ previous, exec (undoAuthority (.rowField row field content.fields[field]?
        (current.touchedRowFields.contains ⟨row, field⟩)
        (current.touchedLists.contains row.list))) state = (.ok (), previous) ∧
      Similar covered previous current := by
  obtain ⟨other, present, _⟩ := similar.agree.row?_of_right found
  have executed : exec (undoAuthority (.rowField row field content.fields[field]?
      (current.touchedRowFields.contains ⟨row, field⟩)
      (current.touchedLists.contains row.list))) state =
      (.ok (), { state.modifyRow row fun content' =>
          { content' with fields := putOrErase content'.fields field content.fields[field]? } with
        touchedRowFields := setMember state.touchedRowFields ⟨row, field⟩
          (current.touchedRowFields.contains ⟨row, field⟩)
        touchedLists := setMember state.touchedLists row.list
          (current.touchedLists.contains row.list) }) := by
    unfold undoAuthority
    rw [exec_get_bind, present]
    rfl
  refine ⟨_, executed, { similar.agree with
    lists := ?_, touchedLists := ?_, touchedRowFields := ?_ }, ?_⟩
  · intro id
    change Option.Rel _ (state.lists.modify row.list _)[id]? _
    rw [getElem?_modify]
    obtain ⟨list, listFound, rowFound⟩ := row?_eq_some_iff.mp found
    split
    · next same =>
        subst same
        apply optionRel_map_left (similar.agree.lists row.list)
        intro first second _ here agree
        rw [listFound] at here
        cases here
        exact agree.restore rowFound
    · next apart =>
        apply optionRel_mono (similar.agree.lists id)
        intro first second here agree
        apply agree.weaken
        rintro other _ member (same | covers)
        · cases same
          obtain ⟨content, present⟩ := mem_iff_exists.mp member
          exact absurd ((wellFormed.lists here).owned present).1 apart
        · exact covers
  · exact fun other free => mem_setMember fun _ => similar.agree.touchedLists other free
  · intro other free
    apply mem_setMember
    exact fun apart => similar.agree.touchedRowFields other (not_or.mpr ⟨apart, free⟩)
  · exact similar.sound.modifyRow fun _ => ⟨rfl, rfl⟩

theorem exec_rollbackList_bind {next : ListState V → Repair V S α}
    (found : state.lists[listId]? = some list) :
    exec (rollbackList listId >>= next) state = exec (next list) state := by
  unfold rollbackList
  rw [bind_assoc, exec_get_bind, found, okOr, exec_attempt_bind]

/-- The machine with another state of a list. -/
def MachineInstance.withList (machine : MachineInstance V S) (listId : ListId)
    (list : ListState V) : MachineInstance V S :=
  { machine with lists := machine.lists.insert listId list }

theorem MachineInstance.withList_withList {first second : ListState V} :
    (machine.withList listId first).withList listId second = machine.withList listId second := by
  unfold withList
  rw [insert_insert]

theorem MachineInstance.Sound.withList (sound : machine.Sound) (listSound : list.PartitionsSound) :
    (machine.withList listId list).Sound := by
  intro id other found
  rcases getElem?_insert_eq_some_iff.mp found with ⟨_, rfl⟩ | ⟨_, found⟩
  · exact listSound
  · exact sound found

omit [RuntimeValue V] in
theorem Agree.lists_insert {coveredFields wider : RowField → Prop}
    {left right changed : ListState V} {leftLists rightLists : BTreeMap ListId (ListState V)}
    (found : rightLists[listId]? = some right) (agree : ListAgree coveredFields left right)
    (others : ∀ id : ListId, Option.Rel (ListAgree wider) leftLists[id]?
      (rightLists.insert listId changed)[id]?)
    (free : ∀ {other : ListId} {list : ListState V}, other ≠ listId →
      rightLists[other]? = some list → ∀ {id : RowId} {field : FieldId}, id ∈ list.rows →
      wider ⟨id, field⟩ → coveredFields ⟨id, field⟩) (id : ListId) :
    Option.Rel (ListAgree coveredFields) (leftLists.insert listId left)[id]? rightLists[id]? := by
  have others := others id
  rw [getElem?_insert] at others ⊢
  split at others
  · next same =>
      rw [if_pos same, ← same, found]
      exact .some agree
  · next apart =>
      rw [if_neg apart]
      apply optionRel_mono others
      intro first second present listAgree
      exact listAgree.weaken (free (Ne.symm apart) present)

omit [RuntimeValue V] in
theorem optionRel_offRow {coveredFields : RowField → Prop} {row id : RowId}
    {left right : Option (Row V)} (apart : row ≠ id)
    (agree : Option.Rel (RowAgree (fun other => other.row = row ∨ coveredFields other) id)
      left right) : Option.Rel (RowAgree coveredFields id) left right := by
  apply optionRel_mono agree
  intro first second _ rowAgree
  apply rowAgree.weaken
  rintro _ (same | covers)
  · exact absurd same.symm apart
  · exact covers

omit [RuntimeValue V] in
theorem SourceOrderPatch.Commits.of_agree {coveredFields : RowField → Prop} {after : ListState V}
    (commits : patch.Commits list next)
    (agree : ListAgree coveredFields after next) : patch.Commits list after :=
  ⟨agree.order.trans commits.order, agree.orderTokens.trans commits.tokens,
    agree.nextOrderToken.trans commits.next⟩

theorem Similar.restoreList {row : RowId} {restored : ListState V}
    {touchedAfter touched : BTreeSet RowField} (wellFormed : current.WellFormed)
    (found : current.lists[row.list]? = some list) (similar : Similar (covered.addRow row) state
      { current.withList row.list next with touchedRowFields := touchedAfter })
    (agree : ListAgree covered.rowFields restored list) (sound : restored.PartitionsSound)
    (touches : ∀ entry, ¬covered.rowFields entry →
      (entry ∈ touched ↔ entry ∈ current.touchedRowFields)) :
    Similar covered { state.withList row.list restored with
      touchedRowFields := touched
      touchedLists := setMember state.touchedLists row.list
        (current.touchedLists.contains row.list) } current := by
  refine ⟨{ similar.agree with
    lists := ?_, touchedLists := ?_, touchedRowFields := touches }, similar.sound.withList sound⟩
  · apply Agree.lists_insert found agree similar.agree.lists
    rintro other _ apart present id _ member (rfl | covers)
    · obtain ⟨_, inside⟩ := mem_iff_exists.mp member
      exact absurd ((wellFormed.lists present).owned inside).1.symm apart
    · exact covers
  · intro other free
    apply mem_setMember
    exact fun apart => similar.agree.touchedLists other (not_or.mpr ⟨apart, free⟩)

theorem undo_appendRow {row : RowId} (wellFormed : current.WellFormed)
    (found : current.lists[row.list]? = some list) (prepared : patch.Prepared list)
    (fresh : row ∉ list.order.rows) (leaf : content.ownerAncestry.getLast? = some row)
    (commits : patch.Commits list next) (rows : next.rows = list.rows.insert row content)
    (similar : Similar (covered.addRow row) state (current.withList row.list next)) :
    ∃ previous, exec (undoAuthority (.appendRow row list.nextKey patch
        (current.touchedLists.contains row.list))) state = (.ok (), previous) ∧
      Similar covered previous current := by
  obtain ⟨after, present, agree⟩ := similar.agree.list_of_right
    (show (current.lists.insert row.list next)[row.list]? = some next by simp)
  obtain ⟨other, rowPresent, rowAgree⟩ := agree.row_of_right
    (show next.rows[row]? = some content by simp [rows])
  have otherLeaf : other.ownerAncestry.getLast? = some row := rowAgree.ownerAncestry ▸ leaf
  have absent : row ∉ list.rows := fun member =>
    fresh ((wellFormed.lists found).mem_order.mpr member)
  have emptied : after.dropRow row other = { after with
      rows := after.rows.erase row
      ownerPartitions := (after.dropRow row other).ownerPartitions } := dropRow_eq
  have emptiedCommits : patch.Commits list (after.dropRow row other) := by
    obtain ⟨order, tokens, token⟩ := commits.of_agree agree
    rw [emptied]
    exact ⟨order, tokens, token⟩
  let restored : ListState V := { after.dropRow row other with
    order := list.order
    orderTokens := list.orderTokens
    nextOrderToken := list.nextOrderToken
    nextKey := list.nextKey }
  refine ⟨{ (state.withList row.list (after.dropRow row other)).withList row.list restored with
      touchedRowFields := state.touchedRowFields.filter fun entry => entry.row ≠ row
      touchedLists := setMember state.touchedLists row.list
        (current.touchedLists.contains row.list) }, ?_, ?_⟩
  · unfold undoAuthority
    rw [exec_rollbackList_bind present, rowPresent]
    change exec (attempt (patch.applyReverseIdempotent (after.dropRow row other)) >>= _) _ = _
    rw [prepared.reverse emptiedCommits]
    rfl
  · rw [withList_withList]
    apply similar.restoreList wellFormed found
    · refine ⟨rfl, rfl, rfl, rfl, fun id => ?_⟩
      have rowsAgree := agree.rows id
      rw [rows_dropRow, getElem?_erase]
      rw [rows, getElem?_insert] at rowsAgree
      split
      · next same =>
          rw [← same, Std.ExtTreeMap.getElem?_eq_none absent]
          exact .none
      · next apart =>
          rw [if_neg apart] at rowsAgree
          exact optionRel_offRow apart rowsAgree
    · have sound := (similar.sound present).dropRow rowPresent otherLeaf
      exact sound.congr rfl fun _ => rfl
    · intro entry free
      rw [BTreeSet.mem_filter, decide_eq_true_iff]
      by_cases same : entry.row = row
      · refine iff_of_false (fun both => both.2 same) fun touched => ?_
        obtain ⟨content, present⟩ := Option.isSome_iff_exists.mp (wellFormed.touched touched)
        obtain ⟨list, listFound, rowFound⟩ := row?_eq_some_iff.mp present
        rw [same, found] at listFound
        cases listFound
        exact absent (mem_iff_exists.mpr ⟨content, same ▸ rowFound⟩)
      · rw [similar.agree.touchedRowFields entry (not_or.mpr ⟨same, free⟩)]
        exact and_iff_left same

theorem undo_removeRow {row : RowId} {touchedFields : List FieldId}
    (wellFormed : current.WellFormed) (found : current.lists[row.list]? = some list)
    (rowFound : list.rows[row]? = some content) (prepared : patch.Prepared list)
    (commits : patch.Commits list next) (rows : next.rows = list.rows.erase row)
    (touches : ∀ field, field ∈ touchedFields ↔ ⟨row, field⟩ ∈ current.touchedRowFields)
    (similar : Similar (covered.addRow row) state { current.withList row.list next with
      touchedRowFields := current.touchedRowFields.filter fun entry => entry.row ≠ row }) :
    ∃ previous, exec (undoAuthority (.removeRow row content patch list.nextKey
        (current.touchedLists.contains row.list) touchedFields)) state = (.ok (), previous) ∧
      Similar covered previous current := by
  obtain ⟨after, present, agree⟩ := similar.agree.list_of_right
    (show (current.lists.insert row.list next)[row.list]? = some next by simp)
  have listWellFormed := wellFormed.lists found
  have leaf := (listWellFormed.owned rowFound).2
  have absent : row ∉ after.rows := by
    rw [agree.mem_rows, rows, mem_erase]
    exact fun both => both.1 rfl
  let reversed : ListState V := { after with
    order := list.order
    orderTokens := list.orderTokens
    nextOrderToken := list.nextOrderToken }
  have reversedSound : reversed.PartitionsSound :=
    (similar.sound present).congr rfl fun _ => rfl
  have free : reversed.OriginFree content := by
    intro origin known member
    obtain ⟨other, indexed⟩ := mem_iff_exists.mp member
    obtain ⟨_, otherFound, owns, same⟩ := reversedSound.origin_partitionOf indexed
    obtain ⟨_, stays, rowAgree⟩ := agree.row_of_left otherFound
    rw [rows, getElem?_erase_eq_some_iff] at stays
    exact stays.1 (listWellFormed.origin_unique rowFound stays.2
      (owns.symm.trans rowAgree.ownerPrefix_eq) known
      (rowAgree.materializationOrigin.symm.trans same))
  let inserted : ListState V := { reversed with rows := reversed.rows.insert row content }
  have indexed : inserted.indexOwnerPartitionRow row = _ :=
    indexOwnerPartitionRow_eq (by simp [inserted]) leaf free
  have sound : (inserted.fileRow row content).PartitionsSound := reversedSound.fileRow absent
  generalize filed : inserted.fileRow row content = filedList at indexed sound
  refine ⟨{ (state.withList row.list filedList).withList row.list
        { filedList with nextKey := list.nextKey } with
      touchedRowFields := touchedFields.foldl (fun touched field => touched.insert ⟨row, field⟩)
        (state.touchedRowFields.filter fun entry => entry.row ≠ row)
      touchedLists := setMember state.touchedLists row.list
        (current.touchedLists.contains row.list) }, ?_, ?_⟩
  · unfold undoAuthority
    rw [exec_rollbackList_bind present, prepared.reverse (commits.of_agree agree),
      exec_attempt_bind]
    dsimp only
    rw [if_neg absent, indexed]
    rfl
  · rw [withList_withList]
    apply similar.restoreList wellFormed found
    · subst filed
      refine ⟨rfl, rfl, rfl, rfl, fun id => ?_⟩
      have rowsAgree := agree.rows id
      change Option.Rel _ (after.rows.insert row content)[id]? _
      rw [getElem?_insert]
      rw [rows, getElem?_erase] at rowsAgree
      split
      · next same =>
          rw [← same, rowFound]
          exact .some (.refl row content)
      · next apart =>
          rw [if_neg apart] at rowsAgree
          exact optionRel_offRow apart rowsAgree
    · exact sound.congr rfl fun _ => rfl
    · intro entry free
      have folded : touchedFields.foldl (fun touched field => touched.insert ⟨row, field⟩)
          (state.touchedRowFields.filter fun entry => entry.row ≠ row) =
          (touchedFields.map (RowField.mk row)).foldl (·.insert ·)
            (state.touchedRowFields.filter fun entry => entry.row ≠ row) :=
        (List.foldl_map ..).symm
      rw [folded, BTreeSet.mem_foldl_insert, BTreeSet.mem_filter]
      obtain ⟨entryRow, field⟩ := entry
      by_cases same : entryRow = row
      · subst same
        simp [touches]
      · have others := similar.agree.touchedRowFields ⟨entryRow, field⟩ (not_or.mpr ⟨same, free⟩)
        rw [others]
        simp [same, Ne.symm same]

/-- The list with another partition. -/
def ListState.withPartition (list : ListState V) (owner : Ancestry) (partition : OwnerPartition) :
    ListState V :=
  { list with ownerPartitions := list.ownerPartitions.insert owner partition }

omit [RuntimeValue V] in
theorem ListState.PartitionsSound.setOrder {order : List RowId} (sound : list.PartitionsSound)
    (found : list.ownerPartitions[owner]? = some partition)
    (complete : ∀ {id : RowId} {row : Row V}, list.rows[id]? = some row →
      ListState.ownerPrefix row = owner → id ∈ order) :
    (list.withPartition owner { partition with order := order }).PartitionsSound where
  filed {id row} present := by
    unfold withPartition
    rw [getElem?_insert]
    split
    · next same => exact ⟨_, rfl, complete present same.symm⟩
    · exact sound.filed present
  origin {other otherPartition origin id} filed indexed := by
    rcases getElem?_insert_eq_some_iff.mp filed with ⟨rfl, rfl⟩ | ⟨_, filed⟩
    · exact sound.origin found indexed
    · exact sound.origin filed indexed

theorem undo_reorderRows (wellFormed : current.WellFormed)
    (found : current.lists[listId]? = some list) (prepared : patch.Prepared list)
    (commits : patch.Commits list next) (rows : next.rows = list.rows)
    (nextKey : next.nextKey = list.nextKey) (filed : list.ownerPartitions[owner]? = some partition)
    (similar : Similar covered state (current.withList listId next)) :
    ∃ previous, exec (undoAuthority (.reorderRows listId patch (some (owner, partition.order))))
        state = (.ok (), previous) ∧ Similar covered previous current := by
  obtain ⟨after, present, agree⟩ := similar.agree.list_of_right
    (show (current.lists.insert listId next)[listId]? = some next by simp)
  have listWellFormed := wellFormed.lists found
  have order := listWellFormed.partitions.order owner
  rw [partitionOf_eq filed] at order
  have sound := similar.sound present
  -- A partition is not empty, and its rows are filed in the list that is taken back.
  obtain ⟨id, member⟩ := List.exists_mem_of_ne_nil _ (listWellFormed.partitions.inhabited filed)
  obtain ⟨_, row, rowFound, owns⟩ := mem_rowsUnder.mp (order ▸ member)
  obtain ⟨_, otherFound, rowAgree⟩ := agree.row_of_right (rows.symm ▸ rowFound)
  obtain ⟨otherPartition, otherFiled, _⟩ := sound.filed otherFound
  rw [rowAgree.ownerPrefix_eq, owns] at otherFiled
  let reversed : ListState V := { after with
    order := list.order
    orderTokens := list.orderTokens
    nextOrderToken := list.nextOrderToken }
  have reversedSound : reversed.PartitionsSound := sound.congr rfl fun _ => rfl
  have restoredSound := reversedSound.setOrder otherFiled (show
    ∀ {id : RowId} {row : Row V}, after.rows[id]? = some row →
      ownerPrefix row = owner → id ∈ partition.order by
    intro id row present owns
    obtain ⟨_, found, rowAgree⟩ := agree.row_of_left present
    rw [rows] at found
    rw [order, ← owns, rowAgree.ownerPrefix_eq]
    exact listWellFormed.mem_rowsUnder_order found)
  refine ⟨(state.withList listId reversed).withList listId
    (reversed.withPartition owner { otherPartition with order := partition.order }), ?_, ?_⟩
  · unfold undoAuthority
    rw [exec_get_bind, present, okOr, exec_attempt_bind]
    dsimp only
    rw [prepared.reverse (commits.of_agree agree), exec_attempt_bind]
    unfold putList
    dsimp only
    rw [otherFiled]
    rfl
  · rw [withList_withList]
    refine ⟨{ similar.agree with lists := ?_ }, similar.sound.withList restoredSound⟩
    apply Agree.lists_insert found _ similar.agree.lists fun _ _ _ _ _ covers => covers
    refine ⟨rfl, rfl, rfl, agree.nextKey.trans nextKey, fun id => ?_⟩
    have rowsAgree := agree.rows id
    rw [rows] at rowsAgree
    exact rowsAgree

end BoonCircuit.Executor
