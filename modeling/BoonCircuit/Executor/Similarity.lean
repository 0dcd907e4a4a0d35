import BoonCircuit.Executor.SourceOrder
import BoonCircuit.Executor.Turn

/-!
# Partitions and similar machines

In a well-formed list the partitions file the rows of the order under their owners,
each partition in list order and indexed by the origins of its rows.  A rollback passes
through lists whose partitions are only sound: every row is filed somewhere in its
partition, and indexed origins belong to rows.  Two machines agree when their authority
differs only at places that an undo log covers; partitions, revisions and source
bindings are not compared.
-/

namespace BoonCircuit.Executor

open List hiding any_eq_true getElem?_insert getElem?_modify
open Lib Checks BTreeMap Std Option

namespace ListState

variable {V : Type} {list : ListState V} {id : RowId} {row : Row V} {owner origin : Ancestry}
  {partition : OwnerPartition}

/-- The filed rows that one owner owns. -/
def rowsUnder (list : ListState V) (filed : List RowId) (owner : Ancestry) : List RowId :=
  filed.filter fun id => (list.rows[id]?).any fun row => ownerPrefix row == owner

/-- The partitions are what filing these rows one after the other makes. -/
structure Filed (list : ListState V) (filed : List RowId) : Prop where
  order : ∀ owner, (list.partitionOf owner).order = list.rowsUnder filed owner
  origin : ∀ {owner : Ancestry} {origin : Ancestry} {id : RowId},
    (list.partitionOf owner).byMaterializationOrigin[origin]? = some id ↔
      id ∈ list.rowsUnder filed owner ∧
        (list.rows[id]?).bind Row.materializationOrigin = some origin
  inhabited : ∀ {owner : Ancestry} {partition : OwnerPartition},
    list.ownerPartitions[owner]? = some partition → partition.order ≠ []

/-- Every row is filed under its owner, and indexed origins are origins of rows. -/
structure PartitionsSound (list : ListState V) : Prop where
  filed : ∀ {id : RowId} {row : Row V}, list.rows[id]? = some row →
    ∃ partition, list.ownerPartitions[ownerPrefix row]? = some partition ∧ id ∈ partition.order
  origin : ∀ {owner : Ancestry} {partition : OwnerPartition} {origin : Ancestry} {id : RowId},
    list.ownerPartitions[owner]? = some partition →
    partition.byMaterializationOrigin[origin]? = some id →
    ∃ row, list.rows[id]? = some row ∧ ownerPrefix row = owner ∧
      row.materializationOrigin = some origin

/-- The rows, order and partitions of a list agree. -/
structure WellFormed (list : ListState V) (listId : ListId) : Prop where
  mem_order : ∀ {id : RowId}, id ∈ list.order.rows ↔ id ∈ list.rows
  nodup : list.order.rows.Nodup
  owned : ∀ {id : RowId} {row : Row V}, list.rows[id]? = some row →
    id.list = listId ∧ row.ownerAncestry.getLast? = some id
  partitions : list.Filed list.order.rows

theorem mem_rowsUnder {filed : List RowId} : id ∈ list.rowsUnder filed owner ↔
    id ∈ filed ∧ ∃ row, list.rows[id]? = some row ∧ ownerPrefix row = owner := by
  unfold rowsUnder
  rw [mem_filter, any_eq_true]
  simp only [beq_iff_eq]

theorem partitionOf_eq
    (found : list.ownerPartitions[owner]? = some partition) :
    list.partitionOf owner = partition := by
  rw [partitionOf, found, getD_some]

namespace Filed

variable {filed : List RowId}

theorem partition_of_mem (holds : list.Filed filed) (member : id ∈ list.rowsUnder filed owner) :
    list.ownerPartitions[owner]? = some (list.partitionOf owner) := by
  have order := holds.order owner
  unfold partitionOf at order ⊢
  cases found : list.ownerPartitions[owner]? with
  | none =>
    rw [found] at order
    rw [← order] at member
    cases member
  | some => rfl

theorem partition_of_empty (holds : list.Filed filed) (nothing : list.rowsUnder filed owner = []) :
    list.ownerPartitions[owner]? = none := by
  cases found : list.ownerPartitions[owner]? with
  | none => rfl
  | some =>
    have order := holds.order owner
    rw [partitionOf_eq found, nothing] at order
    exact absurd order (holds.inhabited found)

theorem partitions_eq {other : ListState V} (holds : list.Filed filed)
    (otherHolds : other.Filed filed) (rows : other.rows = list.rows) :
    other.ownerPartitions = list.ownerPartitions := by
  have under : other.rowsUnder filed = list.rowsUnder filed := by
    unfold rowsUnder
    rw [rows]
  apply ExtTreeMap.ext_getElem?
  intro owner
  by_cases nothing : list.rowsUnder filed owner = []
  · rw [holds.partition_of_empty nothing, otherHolds.partition_of_empty (under ▸ nothing)]
  · obtain ⟨id, member⟩ := exists_mem_of_ne_nil _ nothing
    rw [holds.partition_of_mem member, otherHolds.partition_of_mem (under ▸ member)]
    have order := (otherHolds.order owner).trans (under ▸ (holds.order owner).symm)
    have origins : (other.partitionOf owner).byMaterializationOrigin =
        (list.partitionOf owner).byMaterializationOrigin := by
      apply ExtTreeMap.ext_getElem?
      intro origin
      apply ext
      intro id
      rw [otherHolds.origin, holds.origin, under, rows]
    generalize other.partitionOf owner = left at order origins
    generalize list.partitionOf owner = right at order origins
    cases left
    cases right
    cases order
    cases origins
    rfl

end Filed

namespace WellFormed

variable {listId : ListId}

theorem mem_rowsUnder_order (wellFormed : list.WellFormed listId)
    (found : list.rows[id]? = some row) : id ∈ list.rowsUnder list.order.rows (ownerPrefix row) :=
  mem_rowsUnder.mpr ⟨wellFormed.mem_order.mpr (mem_iff_exists.mpr ⟨row, found⟩), row, found, rfl⟩

theorem sound (wellFormed : list.WellFormed listId) : list.PartitionsSound where
  filed {id row} found := by
    have member := wellFormed.mem_rowsUnder_order found
    exact ⟨_, wellFormed.partitions.partition_of_mem member,
      (wellFormed.partitions.order _).symm ▸ member⟩
  origin {owner partition origin id} found indexed := by
    obtain ⟨member, same⟩ := wellFormed.partitions.origin.mp ((partitionOf_eq found).symm ▸ indexed)
    obtain ⟨_, row, present, owns⟩ := mem_rowsUnder.mp member
    rw [present] at same
    exact ⟨row, present, owns, same⟩

theorem origin_unique (wellFormed : list.WellFormed listId) {first second : RowId}
    {firstRow secondRow : Row V} (firstFound : list.rows[first]? = some firstRow)
    (secondFound : list.rows[second]? = some secondRow)
    (sameOwner : ownerPrefix firstRow = ownerPrefix secondRow)
    (firstOrigin : firstRow.materializationOrigin = some origin)
    (secondOrigin : secondRow.materializationOrigin = some origin) : first = second := by
  have firstIndexed := wellFormed.partitions.origin.mpr
    ⟨wellFormed.mem_rowsUnder_order firstFound, by rw [firstFound]; exact firstOrigin⟩
  have secondIndexed := wellFormed.partitions.origin.mpr
    ⟨sameOwner ▸ wellFormed.mem_rowsUnder_order secondFound,
      by rw [secondFound]; exact secondOrigin⟩
  exact some.inj (firstIndexed.symm.trans secondIndexed)

end WellFormed

/-- The partition with one more row at its end. -/
def filedPartition (list : ListState V) (id : RowId) (row : Row V) : OwnerPartition where
  order := (list.partitionOf (ownerPrefix row)).order ++ [id]
  byMaterializationOrigin := match row.materializationOrigin with
    | none => (list.partitionOf (ownerPrefix row)).byMaterializationOrigin
    | some origin => (list.partitionOf (ownerPrefix row)).byMaterializationOrigin.insert origin id

/-- The list with the row filed. -/
def fileRow (list : ListState V) (id : RowId) (row : Row V) : ListState V :=
  { list with
    ownerPartitions := list.ownerPartitions.insert (ownerPrefix row) (list.filedPartition id row) }

/-- No row with the same owner has the row's origin. -/
def OriginFree (list : ListState V) (row : Row V) : Prop :=
  ∀ origin, row.materializationOrigin = some origin →
    origin ∉ (list.partitionOf (ownerPrefix row)).byMaterializationOrigin

theorem indexOwnerPartitionRow_spec (found : list.rows[id]? = some row)
    (leaf : row.ownerAncestry.getLast? = some id) :
    (list.indexOwnerPartitionRow id).2 = list.fileRow id row ∧
      ((list.indexOwnerPartitionRow id).1 = .ok () ↔ list.OriginFree row) := by
  unfold indexOwnerPartitionRow fileRow filedPartition OriginFree
  rw [found]
  dsimp only
  rw [leaf]
  cases row.materializationOrigin with
  | none => simp
  | some => simp [reject_eq_ok_iff]

theorem indexOwnerPartitionRow_eq (found : list.rows[id]? = some row)
    (leaf : row.ownerAncestry.getLast? = some id) (free : list.OriginFree row) :
    list.indexOwnerPartitionRow id = (.ok (), list.fileRow id row) :=
  Prod.ext ((indexOwnerPartitionRow_spec found leaf).2.mpr free)
    (indexOwnerPartitionRow_spec found leaf).1

theorem getElem?_filedPartition_origin :
    (list.filedPartition id row).byMaterializationOrigin[origin]? =
      if row.materializationOrigin = some origin then some id
      else (list.partitionOf (ownerPrefix row)).byMaterializationOrigin[origin]? := by
  unfold filedPartition
  cases row.materializationOrigin with
  | none => simp
  | some =>
    simp only [getElem?_insert, some.injEq]

theorem partitionOf_fileRow : (list.fileRow id row).partitionOf owner =
    if ownerPrefix row = owner then list.filedPartition id row else list.partitionOf owner := by
  unfold partitionOf fileRow
  rw [getElem?_insert]
  split <;> rfl

theorem Filed.index {filed : List RowId} (holds : list.Filed filed)
    (found : list.rows[id]? = some row) (leaf : row.ownerAncestry.getLast? = some id)
    (free : list.OriginFree row) :
    list.indexOwnerPartitionRow id = (.ok (), list.fileRow id row) ∧
      (list.fileRow id row).Filed (filed ++ [id]) := by
  have under : ∀ owner, list.rowsUnder (filed ++ [id]) owner =
      list.rowsUnder filed owner ++ if ownerPrefix row = owner then [id] else [] := by
    intro owner
    unfold rowsUnder
    by_cases owns : ownerPrefix row = owner <;> simp [found, owns]
  have unfiled : ∀ {other origin}, other ∈ list.rowsUnder filed (ownerPrefix row) →
      row.materializationOrigin = some origin →
      (list.rows[other]?).bind Row.materializationOrigin ≠ some origin := by
    intro other origin member known same
    exact free origin known (mem_iff_exists.mpr ⟨other, holds.origin.mpr ⟨member, same⟩⟩)
  refine ⟨indexOwnerPartitionRow_eq found leaf free, ?_, ?_, ?_⟩
  · intro owner
    rw [partitionOf_fileRow]
    change _ = list.rowsUnder (filed ++ [id]) owner
    rw [under]
    split
    · next owns => rw [filedPartition, holds.order, owns]
    · rw [append_nil, holds.order]
  · intro owner origin other
    rw [partitionOf_fileRow]
    change _ ↔ other ∈ list.rowsUnder (filed ++ [id]) owner ∧
      (list.rows[other]?).bind Row.materializationOrigin = some origin
    rw [under, mem_append]
    split
    · next owns =>
        subst owns
        rw [getElem?_filedPartition_origin, mem_singleton]
        split
        · next known =>
            rw [some.injEq]
            constructor
            · rintro rfl
              exact ⟨.inr rfl, by rw [found]; exact known⟩
            · rintro ⟨member | rfl, same⟩
              · exact absurd same (unfiled member known)
              · rfl
        · next unknown =>
            rw [holds.origin]
            constructor
            · rintro ⟨member, same⟩
              exact ⟨.inl member, same⟩
            · rintro ⟨member | rfl, same⟩
              · exact ⟨member, same⟩
              · rw [found] at same
                exact absurd same unknown
    · rw [holds.origin]
      simp
  · intro owner partition present
    rcases getElem?_insert_eq_some_iff.mp present with ⟨_, rfl⟩ | ⟨_, present⟩
    · simp [filedPartition]
    · exact holds.inhabited present

/-- The partitions that are rebuilt from scratch are the partitions there were. -/
theorem WellFormed.rebuildOwnerPartitions_eq {listId : ListId}
    (wellFormed : list.WellFormed listId) :
    list.rebuildOwnerPartitions = (.ok (), list) := by
  have run : ∀ {filed rest : List RowId} {state : ListState V}, filed ++ rest = list.order.rows →
      state.Filed filed → state = { list with ownerPartitions := state.ownerPartitions } →
      ∃ partitions, runAll (fun row list => list.indexOwnerPartitionRow row) rest state =
          (.ok (), { list with ownerPartitions := partitions }) ∧
        Filed { list with ownerPartitions := partitions } list.order.rows := by
    intro filed rest
    induction rest generalizing filed with
    | nil =>
      intro state whole holds same
      rw [append_nil] at whole
      subst whole
      exact ⟨_, congrArg _ same, same ▸ holds⟩
    | cons id rest ih =>
      intro state whole holds same
      have rows : state.rows = list.rows := by rw [same]
      have nodup := wellFormed.nodup
      rw [← whole] at nodup
      have member : id ∈ list.order.rows := by simp [← whole]
      obtain ⟨row, found⟩ := mem_iff_exists.mp (wellFormed.mem_order.mp member)
      have free : state.OriginFree row := by
        intro origin known indexed
        obtain ⟨other, indexed⟩ := mem_iff_exists.mp indexed
        obtain ⟨under, same⟩ := holds.origin.mp indexed
        obtain ⟨earlier, otherRow, present, owns⟩ := mem_rowsUnder.mp under
        rw [present] at same
        cases wellFormed.origin_unique (rows ▸ present) found owns same known
        exact (nodup_append.mp nodup).2.2 id earlier id mem_cons_self rfl
      obtain ⟨indexed, holds⟩ := holds.index (rows ▸ found) (wellFormed.owned found).2 free
      rw [runAll, indexed]
      apply ih (by rw [append_assoc, singleton_append, whole]) holds
      unfold fileRow
      rw [same]
  have start : Filed { list with ownerPartitions := ∅ } [] := by
    refine ⟨fun owner => ?_, ?_, ?_⟩
    · simp [partitionOf, rowsUnder, emptyPartition]
    · simp [partitionOf, rowsUnder, emptyPartition]
    · simp
  obtain ⟨partitions, rebuilt, holds⟩ := run (nil_append _) start rfl
  have same := wellFormed.partitions.partitions_eq holds rfl
  unfold rebuildOwnerPartitions
  rw [rebuilt]
  dsimp only at same
  rw [same]

theorem PartitionsSound.origin_partitionOf (sound : list.PartitionsSound) {other : RowId}
    (indexed : (list.partitionOf owner).byMaterializationOrigin[origin]? = some other) :
    ∃ otherRow, list.rows[other]? = some otherRow ∧ ownerPrefix otherRow = owner ∧
      otherRow.materializationOrigin = some origin := by
  unfold partitionOf at indexed
  cases present : list.ownerPartitions[owner]? with
  | none => simp [present, emptyPartition] at indexed
  | some =>
    rw [present] at indexed
    exact sound.origin present indexed

theorem PartitionsSound.fileRow (sound : list.PartitionsSound) (fresh : id ∉ list.rows) :
    ({ list with rows := list.rows.insert id row }.fileRow id row).PartitionsSound := by
  have found : (list.rows.insert id row)[id]? = some row := by simp
  have kept : ∀ {other : RowId} {otherRow : Row V}, list.rows[other]? = some otherRow →
      (list.rows.insert id row)[other]? = some otherRow := by
    intro other otherRow present
    rw [getElem?_insert, if_neg]
    · exact present
    · rintro rfl
      exact fresh (mem_iff_exists.mpr ⟨_, present⟩)
  constructor
  · intro other otherRow present
    unfold ListState.fileRow filedPartition
    rw [getElem?_insert]
    rcases getElem?_insert_eq_some_iff.mp present with ⟨rfl, rfl⟩ | ⟨_, present⟩
    · rw [if_pos rfl]
      exact ⟨_, rfl, by simp⟩
    · obtain ⟨partition, filed, member⟩ := sound.filed present
      split
      · next owns =>
          refine ⟨_, rfl, mem_append_left _ ?_⟩
          change other ∈ (list.partitionOf (ownerPrefix row)).order
          rwa [owns, partitionOf_eq filed]
      · exact ⟨partition, filed, member⟩
  · intro owner partition origin other filed known
    rcases getElem?_insert_eq_some_iff.mp filed with ⟨rfl, rfl⟩ | ⟨_, filed⟩
    · rw [getElem?_filedPartition_origin] at known
      split at known
      · next same =>
          cases known
          exact ⟨row, found, rfl, same⟩
      · obtain ⟨otherRow, present, same⟩ := sound.origin_partitionOf known
        exact ⟨otherRow, kept present, same⟩
    · obtain ⟨otherRow, present, same⟩ := sound.origin filed known
      exact ⟨otherRow, kept present, same⟩

/-- The partition without a row. -/
def unfiledPartition (partition : OwnerPartition) (id : RowId) (row : Row V) : OwnerPartition where
  order := partition.order.filter (· ≠ id)
  byMaterializationOrigin := match row.materializationOrigin with
    | some origin => partition.byMaterializationOrigin.erase origin
    | none => partition.byMaterializationOrigin

theorem getElem?_unfiledPartition_origin :
    (unfiledPartition partition id row).byMaterializationOrigin[origin]? =
      if row.materializationOrigin = some origin then none
      else partition.byMaterializationOrigin[origin]? := by
  unfold unfiledPartition
  cases row.materializationOrigin with
  | none => simp
  | some =>
    simp only [getElem?_erase, some.injEq]

theorem removeOwnerPartitionRow_eq : list.removeOwnerPartitionRow id row =
    { list with ownerPartitions := (list.removeOwnerPartitionRow id row).ownerPartitions } := by
  unfold removeOwnerPartitionRow
  split
  · rfl
  · split
    · rfl
    · dsimp only
      split <;> rfl

/-- The list without a row. -/
def dropRow (list : ListState V) (id : RowId) (row : Row V) : ListState V :=
  { list with rows := list.rows.erase id }.removeOwnerPartitionRow id row

@[simp]
theorem rows_dropRow : (list.dropRow id row).rows = list.rows.erase id := by
  rw [dropRow, removeOwnerPartitionRow_eq]

theorem dropRow_eq : list.dropRow id row = { list with
    rows := list.rows.erase id
    ownerPartitions := (list.dropRow id row).ownerPartitions } := by
  unfold dropRow
  rw [removeOwnerPartitionRow_eq]

theorem getElem?_dropRow (leaf : row.ownerAncestry.getLast? = some id) :
    (list.dropRow id row).ownerPartitions[owner]? =
      if ownerPrefix row = owner then
        (list.ownerPartitions[owner]?).bind fun partition =>
          if (unfiledPartition partition id row).order = [] then none
          else some (unfiledPartition partition id row)
      else list.ownerPartitions[owner]? := by
  have owned : row.ownerAncestry ≠ [] := by
    rintro nothing
    rw [nothing] at leaf
    cases leaf
  unfold dropRow removeOwnerPartitionRow
  rw [if_neg owned]
  cases found : list.ownerPartitions[ownerPrefix row]? with
  | none =>
    dsimp only
    split
    · next owns => rw [← owns, found, bind_none]
    · rfl
  | some partition =>
    change (ite ((unfiledPartition partition id row).order = []) _ _ :
      ListState V).ownerPartitions[owner]? = _
    by_cases owns : ownerPrefix row = owner
    · subst owns
      rw [if_pos rfl, found, bind_some]
      split
      · simp
      · exact getElem?_insert.trans (if_pos rfl)
    · rw [if_neg owns]
      split
      · rw [getElem?_erase, if_neg owns]
      · rw [getElem?_insert, if_neg owns]

theorem PartitionsSound.dropRow (sound : list.PartitionsSound) (found : list.rows[id]? = some row)
    (leaf : row.ownerAncestry.getLast? = some id) : (list.dropRow id row).PartitionsSound where
  filed {other otherRow} present := by
    rw [rows_dropRow, getElem?_erase_eq_some_iff] at present
    obtain ⟨partition, filed, member⟩ := sound.filed present.2
    rw [getElem?_dropRow leaf]
    split
    · have stays : other ∈ (unfiledPartition partition id row).order :=
        mem_filter.mpr ⟨member, decide_eq_true (Ne.symm present.1)⟩
      rw [filed, bind_some, if_neg (ne_nil_of_mem stays)]
      exact ⟨_, rfl, stays⟩
    · exact ⟨partition, filed, member⟩
  origin {owner partition origin other} filed indexed := by
    rw [getElem?_dropRow leaf] at filed
    have kept : ∀ {otherRow}, list.rows[other]? = some otherRow → row ≠ otherRow →
        (list.dropRow id row).rows[other]? = some otherRow := by
      intro otherRow present apart
      rw [rows_dropRow, getElem?_erase, if_neg, present]
      rintro rfl
      exact apart (some.inj (found.symm.trans present))
    split at filed
    · next owns =>
        obtain ⟨partition, before, filed⟩ := bind_eq_some_iff.mp filed
        split at filed
        · cases filed
        · cases filed
          rw [getElem?_unfiledPartition_origin] at indexed
          split at indexed
          · cases indexed
          · next unknown =>
              obtain ⟨otherRow, present, same⟩ := sound.origin before indexed
              exact ⟨otherRow, kept present fun equal => unknown (equal ▸ same.2), same⟩
    · next elsewhere =>
        obtain ⟨otherRow, present, same⟩ := sound.origin filed indexed
        exact ⟨otherRow, kept present fun equal => elsewhere (equal ▸ same.1), same⟩

theorem Filed.partitionOf_dropRow {filed : List RowId} (holds : list.Filed filed)
    (found : list.rows[id]? = some row) (leaf : row.ownerAncestry.getLast? = some id) :
    (list.dropRow id row).partitionOf owner =
      if ownerPrefix row = owner then unfiledPartition (list.partitionOf owner) id row
      else list.partitionOf owner := by
  have emptied : (unfiledPartition (list.partitionOf owner) id row).order = [] →
      emptyPartition = unfiledPartition (list.partitionOf owner) id row := by
    intro nothing
    have origins : (unfiledPartition (list.partitionOf owner) id row).byMaterializationOrigin =
        ∅ := by
      apply ExtTreeMap.ext_getElem?
      intro origin
      rw [getElem?_unfiledPartition_origin]
      split
      · rfl
      · next unknown =>
          refine eq_none_iff_forall_ne_some.mpr fun other indexed => ?_
          obtain ⟨member, given⟩ := holds.origin.mp indexed
          rw [← holds.order] at member
          have same : other = id := by simpa using filter_eq_nil_iff.mp nothing other member
          rw [same, found] at given
          exact unknown given
    generalize unfiledPartition (list.partitionOf owner) id row = partition at nothing origins
    cases partition
    cases nothing
    cases origins
    rfl
  unfold partitionOf at emptied ⊢
  rw [getElem?_dropRow leaf]
  split
  · cases present : list.ownerPartitions[owner]? with
    | none =>
      rw [present] at emptied
      exact emptied rfl
    | some =>
      rw [present] at emptied
      rw [bind_some]
      split
      · next nothing => exact emptied nothing
      · rfl
  · rfl

theorem Filed.dropRow {filed : List RowId} (holds : list.Filed filed) (known : id ∈ filed)
    (found : list.rows[id]? = some row) (leaf : row.ownerAncestry.getLast? = some id) :
    (list.dropRow id row).Filed (filed.filter (· ≠ id)) := by
  have under : ∀ owner, (list.dropRow id row).rowsUnder (filed.filter (· ≠ id)) owner =
      (list.rowsUnder filed owner).filter (· ≠ id) := by
    intro owner
    unfold rowsUnder
    rw [List.filter_filter, List.filter_filter]
    apply filter_congr
    intro other _
    rw [rows_dropRow, getElem?_erase]
    by_cases same : other = id
    · simp [same]
    · simp [same, Ne.symm same]
  have elsewhere : ∀ {owner}, ¬ownerPrefix row = owner → id ∉ list.rowsUnder filed owner := by
    intro owner away member
    obtain ⟨_, _, present, owns⟩ := mem_rowsUnder.mp member
    cases found.symm.trans present
    exact away owns
  refine ⟨fun owner => ?_, fun {owner origin other} => ?_, fun {owner partition} present => ?_⟩
  · rw [under, ← holds.order, holds.partitionOf_dropRow found leaf]
    split
    · rfl
    · next away =>
        rw [holds.order]
        refine (filter_eq_self.mpr fun other member => ?_).symm
        exact decide_eq_true fun same => elsewhere away (same ▸ member)
  · rw [under, List.mem_filter, decide_eq_true_iff, holds.partitionOf_dropRow found leaf,
      rows_dropRow, getElem?_erase]
    -- the row that goes is the only one of its owner with its origin
    have kept : (other ∈ list.rowsUnder filed owner →
        (list.rows[other]?).bind Row.materializationOrigin = some origin → other ≠ id) →
        ((list.partitionOf owner).byMaterializationOrigin[origin]? = some other ↔
          (other ∈ list.rowsUnder filed owner ∧ other ≠ id) ∧
            (if id = other then none else list.rows[other]?).bind Row.materializationOrigin =
              some origin) := by
      intro apart
      rw [holds.origin]
      by_cases same : id = other
      · simp only [same, ne_eq, not_true, and_false, false_and, iff_false]
        exact fun ⟨member, given⟩ => apart member given same.symm
      · rw [if_neg same, and_iff_left (Ne.symm same)]
    split
    · next owns =>
        rw [getElem?_unfiledPartition_origin]
        split
        · next own =>
            simp only [reduceCtorEq, false_iff]
            rintro ⟨⟨member, apart⟩, given⟩
            rw [if_neg fun same => apart same.symm] at given
            have first := holds.origin.mpr ⟨member, given⟩
            have second := holds.origin.mpr
              ⟨mem_rowsUnder.mpr ⟨known, row, found, owns⟩, by rw [found]; exact own⟩
            exact apart (some.inj (first.symm.trans second))
        · next unknown =>
            apply kept
            rintro _ given rfl
            rw [found] at given
            exact unknown given
    · next away =>
        apply kept
        rintro member _ rfl
        exact elsewhere away member
  · rw [getElem?_dropRow leaf] at present
    split at present
    · obtain ⟨_, _, present⟩ := bind_eq_some_iff.mp present
      split at present
      · cases present
      · cases present
        assumption
    · exact holds.inhabited present

theorem Filed.reorder {filed moved rows : List RowId} (holds : list.Filed filed)
    (own : list.rowsUnder moved owner = rows) (perm : rows.Perm (list.rowsUnder filed owner))
    (others : ∀ other, other ≠ owner → list.rowsUnder moved other = list.rowsUnder filed other) :
    Filed { list with ownerPartitions := list.ownerPartitions.modify owner fun partition =>
      { partition with order := rows } } moved := by
  have partition : ∀ other, partitionOf { list with
        ownerPartitions := list.ownerPartitions.modify owner fun partition =>
          { partition with order := rows } } other =
      { list.partitionOf other with order := list.rowsUnder moved other } := by
    intro other
    unfold partitionOf
    rw [getElem?_modify]
    split
    · next same =>
        subst same
        rw [own]
        cases present : list.ownerPartitions[owner]? with
        | none =>
          have order := holds.order owner
          rw [partitionOf, present] at order
          rw [← order] at perm
          have nothing : rows = [] := perm.eq_nil
          simp [nothing, emptyPartition]
        | some => rfl
    · next apart =>
        rw [others other fun same => apart same.symm, ← holds.order]
        rfl
  refine ⟨fun other => ?_, fun {other origin id} => ?_, fun {other found} present => ?_⟩
  · rw [partition]
    rfl
  · rw [partition]
    change (list.partitionOf other).byMaterializationOrigin[origin]? = some id ↔
      id ∈ list.rowsUnder moved other ∧
        (list.rows[id]?).bind Row.materializationOrigin = some origin
    rw [holds.origin]
    by_cases same : other = owner
    · subst same
      rw [own, perm.mem_iff]
    · rw [others other same]
  · dsimp only at present
    rw [getElem?_modify] at present
    split at present
    · next same =>
        subst same
        obtain ⟨_, found, same⟩ := map_eq_some_iff.mp present
        have inhabited := holds.inhabited found
        have order := holds.order owner
        rw [partitionOf_eq found] at order
        subst same
        intro nothing
        dsimp only at nothing
        rw [nothing, ← order] at perm
        exact inhabited perm.nil_eq.symm
    · exact holds.inhabited present

/-- What partitions know about a row. -/
def filingOf (list : ListState V) (id : RowId) : Option (Ancestry × Option Ancestry) :=
  (list.rows[id]?).map fun row => (row.ownerAncestry, row.materializationOrigin)

section Filing

variable {other : ListState V}

theorem row_of_filingOf (filing : ∀ id, other.filingOf id = list.filingOf id)
    (found : other.rows[id]? = some row) : ∃ same, list.rows[id]? = some same ∧
      same.ownerAncestry = row.ownerAncestry ∧
      same.materializationOrigin = row.materializationOrigin := by
  have filing := filing id
  unfold filingOf at filing
  rw [found] at filing
  obtain ⟨same, present, equal⟩ := map_eq_some_iff.mp filing.symm
  exact ⟨same, present, congrArg Prod.fst equal, congrArg Prod.snd equal⟩

theorem rowsUnder_congr (filing : ∀ id, other.filingOf id = list.filingOf id)
    (filed : List RowId) : other.rowsUnder filed owner = list.rowsUnder filed owner := by
  apply filter_congr
  intro id _
  have filing := filing id
  unfold filingOf at filing
  cases left : other.rows[id]? <;> cases right : list.rows[id]? <;>
    simp_all [ownerPrefix]

theorem WellFormed.congr {listId : ListId} (wellFormed : list.WellFormed listId)
    (order : other.order.rows = list.order.rows)
    (partitions : other.ownerPartitions = list.ownerPartitions)
    (filing : ∀ id, other.filingOf id = list.filingOf id) : other.WellFormed listId where
  mem_order {id} := by
    rw [order, wellFormed.mem_order]
    have filing := congrArg isSome (filing id)
    simp only [filingOf, isSome_map] at filing
    rw [ExtTreeMap.mem_iff_isSome_getElem?, ExtTreeMap.mem_iff_isSome_getElem?, filing]
  nodup := order ▸ wellFormed.nodup
  owned {id row} found := by
    obtain ⟨_, present, ancestry, _⟩ := row_of_filingOf filing found
    exact ancestry ▸ wellFormed.owned present
  partitions := by
    have partition : ∀ owner, other.partitionOf owner = list.partitionOf owner := by
      intro owner
      unfold partitionOf
      rw [partitions]
    refine ⟨fun owner => ?_, fun {owner origin id} => ?_, fun found => ?_⟩
    · rw [partition, order, rowsUnder_congr filing, wellFormed.partitions.order]
    · rw [partition, order, rowsUnder_congr filing, wellFormed.partitions.origin]
      have filing := congrArg (Option.bind · Prod.snd) (filing id)
      simp only [filingOf, bind_map] at filing
      exact and_congr_right' (by
        change (list.rows[id]?).bind (Prod.snd ∘ fun row : Row V =>
          (row.ownerAncestry, row.materializationOrigin)) = _ ↔ _
        rw [← filing]
        rfl)
    · exact wellFormed.partitions.inhabited (partitions ▸ found)

end Filing

end ListState

variable {V S : Type}

structure RowAgree (coveredFields : RowField → Prop) (id : RowId) (left right : Row V) : Prop where
  ownerAncestry : left.ownerAncestry = right.ownerAncestry
  materializationOrigin : left.materializationOrigin = right.materializationOrigin
  fields : ∀ field, ¬coveredFields ⟨id, field⟩ → left.fields[field]? = right.fields[field]?

structure ListAgree (coveredFields : RowField → Prop) (left right : ListState V) : Prop where
  order : left.order = right.order
  orderTokens : left.orderTokens = right.orderTokens
  nextOrderToken : left.nextOrderToken = right.nextOrderToken
  nextKey : left.nextKey = right.nextKey
  rows : ∀ id, Option.Rel (RowAgree coveredFields id) left.rows[id]? right.rows[id]?

section Lists

variable {coveredFields : RowField → Prop} {α : Type} {Related : α → α → Prop} {id : RowId}
  {left right : ListState V} {row : Row V}

theorem optionRel_refl (refl : ∀ value, Related value value)
    (value : Option α) : Option.Rel Related value value := by
  cases value with
  | none => exact .none
  | some value => exact .some (refl value)

theorem optionRel_trans {left middle right : Option α}
    (trans : ∀ {left middle right}, Related left middle → Related middle right →
      Related left right) (first : Option.Rel Related left middle)
    (second : Option.Rel Related middle right) : Option.Rel Related left right := by
  cases first with
  | none => exact second
  | some first =>
    cases second with
    | some second => exact .some (trans first second)

theorem optionRel_some_left {value : α} {other : Option α}
    (related : Option.Rel Related (some value) other) :
    ∃ found, other = some found ∧ Related value found := by
  cases related with
  | some related => exact ⟨_, rfl, related⟩

theorem optionRel_some_right {value : α} {other : Option α}
    (related : Option.Rel Related other (some value)) :
    ∃ found, other = some found ∧ Related found value := by
  cases related with
  | some related => exact ⟨_, rfl, related⟩

theorem RowAgree.refl (id : RowId) (row : Row V) : RowAgree coveredFields id row row :=
  ⟨rfl, rfl, fun _ _ => rfl⟩

theorem RowAgree.trans {left middle right : Row V} (first : RowAgree coveredFields id left middle)
    (second : RowAgree coveredFields id middle right) : RowAgree coveredFields id left right where
  ownerAncestry := first.ownerAncestry.trans second.ownerAncestry
  materializationOrigin := first.materializationOrigin.trans second.materializationOrigin
  fields field free := (first.fields field free).trans (second.fields field free)

theorem RowAgree.ownerPrefix_eq {left right : Row V} (agree : RowAgree coveredFields id left right)
    : ListState.ownerPrefix left = ListState.ownerPrefix right :=
  congrArg List.dropLast agree.ownerAncestry

theorem ListAgree.refl (list : ListState V) : ListAgree coveredFields list list :=
  ⟨rfl, rfl, rfl, rfl, fun id => optionRel_refl (RowAgree.refl id) _⟩

theorem ListAgree.trans {middle : ListState V} (first : ListAgree coveredFields left middle)
    (second : ListAgree coveredFields middle right) : ListAgree coveredFields left right where
  order := first.order.trans second.order
  orderTokens := first.orderTokens.trans second.orderTokens
  nextOrderToken := first.nextOrderToken.trans second.nextOrderToken
  nextKey := first.nextKey.trans second.nextKey
  rows id := optionRel_trans RowAgree.trans (first.rows id) (second.rows id)

theorem ListAgree.mem_rows (agree : ListAgree coveredFields left right)
    (id : RowId) : id ∈ left.rows ↔ id ∈ right.rows := by
  rw [BTreeMap.mem_iff_exists, BTreeMap.mem_iff_exists]
  have rows := agree.rows id
  cases leftFound : left.rows[id]? <;> cases rightFound : right.rows[id]? <;>
    rw [rightFound] at rows <;> simp_all

theorem ListAgree.row_of_right (agree : ListAgree coveredFields left right)
    (found : right.rows[id]? = some row) :
    ∃ other, left.rows[id]? = some other ∧ RowAgree coveredFields id other row :=
  optionRel_some_right (found ▸ agree.rows id)

theorem ListAgree.row_of_left (agree : ListAgree coveredFields left right)
    (found : left.rows[id]? = some row) :
    ∃ other, right.rows[id]? = some other ∧ RowAgree coveredFields id row other :=
  optionRel_some_left (found ▸ agree.rows id)

end Lists

variable [RuntimeValue V]

namespace MachineInstance

/-- All lists are well formed and only fields of existing rows are touched. -/
structure WellFormed (machine : MachineInstance V S) : Prop where
  lists : ∀ {id : ListId} {list : ListState V}, machine.lists[id]? = some list → list.WellFormed id
  touched : ∀ {entry : RowField}, entry ∈ machine.touchedRowFields → (machine.row? entry.row).isSome

end MachineInstance

/-- Places whose first value of the turn is in the undo log. -/
@[ext]
structure Covered (V : Type) where
  roots : StateId → Prop
  rowFields : RowField → Prop
  lists : ListId → Prop
  collections : CollectionAuthorityAddress V → Prop
  producers : CollectionProducerSite V → Prop

def Covered.nothing : Covered V :=
  ⟨fun _ => False, fun _ => False, fun _ => False, fun _ => False, fun _ => False⟩

/-- What a machine keeps as authority. -/
def MachineInstance.authority (machine : MachineInstance V S) :=
  (machine.rootStates, machine.touchedRootStates, machine.lists, machine.touchedLists,
    machine.touchedRowFields, machine.collectionAuthorities, machine.collectionProducers)

/-- Machines whose authority agrees off the covered places. -/
structure Agree (covered : Covered V) (left right : MachineInstance V S) : Prop where
  rootStates : ∀ state, ¬covered.roots state → left.rootStates[state]? = right.rootStates[state]?
  touchedRootStates : ∀ state, ¬covered.roots state →
    (state ∈ left.touchedRootStates ↔ state ∈ right.touchedRootStates)
  lists : ∀ id : ListId, Option.Rel (ListAgree covered.rowFields) left.lists[id]? right.lists[id]?
  touchedLists : ∀ list, ¬covered.lists list →
    (list ∈ left.touchedLists ↔ list ∈ right.touchedLists)
  touchedRowFields : ∀ entry, ¬covered.rowFields entry →
    (entry ∈ left.touchedRowFields ↔ entry ∈ right.touchedRowFields)
  collections : ∀ address, ¬covered.collections address →
    left.collectionAuthorities[address]? = right.collectionAuthorities[address]?
  producers : ∀ site, ¬covered.producers site →
    left.collectionProducers[site]? = right.collectionProducers[site]?

section Agreement

variable {covered : Covered V}

theorem Agree.refl (machine : MachineInstance V S) : Agree covered machine machine :=
  ⟨fun _ _ => rfl, fun _ _ => .rfl, fun _ => optionRel_refl ListAgree.refl _, fun _ _ => .rfl,
    fun _ _ => .rfl, fun _ _ => rfl, fun _ _ => rfl⟩

theorem Agree.trans {left middle right : MachineInstance V S} (first : Agree covered left middle)
    (second : Agree covered middle right) : Agree covered left right where
  rootStates state free := (first.rootStates state free).trans (second.rootStates state free)
  touchedRootStates state free :=
    (first.touchedRootStates state free).trans (second.touchedRootStates state free)
  lists id := optionRel_trans ListAgree.trans (first.lists id) (second.lists id)
  touchedLists list free := (first.touchedLists list free).trans (second.touchedLists list free)
  touchedRowFields entry free :=
    (first.touchedRowFields entry free).trans (second.touchedRowFields entry free)
  collections address free :=
    (first.collections address free).trans (second.collections address free)
  producers site free := (first.producers site free).trans (second.producers site free)

theorem Agree.of_authority_eq {left right : MachineInstance V S}
    (same : left.authority = right.authority) : Agree covered left right := by
  simp only [MachineInstance.authority, Prod.mk.injEq] at same
  obtain ⟨rootStates, touchedRootStates, lists, touchedLists, touchedRowFields, collections,
    producers⟩ := same
  exact ⟨fun _ _ => by rw [rootStates], fun _ _ => by rw [touchedRootStates],
    fun _ => lists ▸ optionRel_refl ListAgree.refl _, fun _ _ => by rw [touchedLists],
    fun _ _ => by rw [touchedRowFields], fun _ _ => by rw [collections],
    fun _ _ => by rw [producers]⟩

theorem Agree.list_of_right {left right : MachineInstance V S} {id : ListId} {list : ListState V}
    (agree : Agree covered left right) (found : right.lists[id]? = some list) :
    ∃ other, left.lists[id]? = some other ∧ ListAgree covered.rowFields other list :=
  optionRel_some_right (found ▸ agree.lists id)

theorem Agree.isSome_row? {left right : MachineInstance V S} (agree : Agree covered left right)
    (row : RowId) : (right.row? row).isSome = (left.row? row).isSome := by
  unfold MachineInstance.row?
  have lists := agree.lists row.list
  generalize left.lists[row.list]? = first, right.lists[row.list]? = second at lists
  cases lists with
  | none => rfl
  | some listAgree =>
    rw [Option.bind_some, Option.bind_some, Bool.eq_iff_iff,
      ← Std.ExtTreeMap.mem_iff_isSome_getElem?, ← Std.ExtTreeMap.mem_iff_isSome_getElem?]
    exact (listAgree.mem_rows row).symm

end Agreement

def MachineInstance.Sound (machine : MachineInstance V S) : Prop :=
  ∀ ⦃id : ListId⦄ ⦃list : ListState V⦄, machine.lists[id]? = some list → list.PartitionsSound

/-- What a replay may start from: a machine with sound partitions that agrees with another one. -/
structure Similar (covered : Covered V) (left right : MachineInstance V S) : Prop where
  agree : Agree covered left right
  sound : left.Sound

theorem Similar.of_agree {covered : Covered V} {state next current : MachineInstance V S}
    (agree : Agree covered next current) (similar : Similar covered state next) :
    Similar covered state current :=
  ⟨similar.agree.trans agree, similar.sound⟩

end BoonCircuit.Executor
