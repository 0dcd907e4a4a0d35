import BoonCircuit.Executor.State
import BoonCircuit.Lib.Labels
import BoonCircuit.Lib.UndoLog

/-!
# Orders of rows in blocks

The rows of a list stand in a chain of blocks of at most 256 rows.  A mutation edits a
draft of the chain: a full block is split, an emptied one leaves the chain and one with
few rows is merged with a neighbour.  What the edit changed becomes a patch of single
blocks and places.  Reading the blocks along their links gives the rows of the draft.
-/

namespace BoonCircuit.Executor

open Lib Checks Labels
open List hiding getElem?_insert

/-- One block of a chain. -/
structure OrderBlock where
  id : UInt64
  rows : List RowId

namespace ListOrder

/-- The blocks that follow one another from a first one, each read once. -/
def chainFrom : Nat → BTreeMap UInt64 ListOrderBlock → Option UInt64 → List OrderBlock
  | fuel + 1, blocks, some id =>
    match blocks[id]? with
    | some block => ⟨id, block.rows⟩ :: chainFrom fuel (blocks.erase id) block.next
    | none => []
  | _, _, _ => []

/-- The chain of an order. -/
def chain (order : ListOrder) : List OrderBlock :=
  chainFrom order.blocks.size order.blocks order.firstBlock

/-- The rows in their order. -/
def rows (order : ListOrder) : List RowId :=
  order.chain.flatMap OrderBlock.rows

/-- An order without rows. -/
def empty : ListOrder :=
  ⟨⟨none, none, 0, 0, 0⟩, ∅, ∅⟩

end ListOrder

/-- A chain that is being edited. -/
structure ListOrderDraft where
  chain : List OrderBlock
  nextBlock : UInt64

namespace ListOrderDraft

def maxBlockRows : Nat :=
  256

def minBlockRows : Nat :=
  64

/-- A position in a chain: the blocks before and behind its block, and the offset in it. -/
structure Place where
  front : List OrderBlock
  block : OrderBlock
  back : List OrderBlock
  offset : Nat

/-- The place of a position, found by counting rows. -/
def locateIndex : List OrderBlock → Nat → Option Place
  | [], _ => none
  | block :: rest, index =>
    if index < block.rows.length then
      some ⟨[], block, rest, index⟩
    else
      (locateIndex rest (index - block.rows.length)).map fun place =>
        { place with front := block :: place.front }

/-- The chain with other blocks instead of the one at a place. -/
def Place.replace (place : Place) (blocks : List OrderBlock) : List OrderBlock :=
  place.front ++ blocks ++ place.back

/-- Joins a block with few rows to the one behind it or else to the one before it, when the
joined block is not too large. -/
def Place.mergeUnderfullBlock (place : Place) : List OrderBlock :=
  let joined (left right : OrderBlock) : OrderBlock := ⟨left.id, left.rows ++ right.rows⟩
  let fits (left right : OrderBlock) : Bool := left.rows.length + right.rows.length ≤ maxBlockRows
  match place.back.head?.filter (fits place.block) with
  | some next => place.front ++ joined place.block next :: place.back.tail
  | none =>
    match place.front.getLast?.filter (fits · place.block) with
    | some previous => place.front.dropLast ++ joined previous place.block :: place.back
    | none => place.replace [place.block]

variable (draft : ListOrderDraft)

def rows : List RowId :=
  draft.chain.flatMap OrderBlock.rows

def ids : List UInt64 :=
  draft.chain.map OrderBlock.id

/-- A fresh block identity and the one behind it. -/
def nextBlockId : Except Error (UInt64 × UInt64) := do
  let block := max draft.nextBlock 1
  let next ← checkedSucc block (.evaluation "list order exhausted its block identity space")
  reject (block ∈ draft.ids) (.invalidPlan "list order block allocator repeated an identity")
  pure (block, next)

/-- Puts a new block between two parts of the chain. -/
def createBlock (front back : List OrderBlock) (rows : List RowId) :
    Except Error ListOrderDraft := do
  let allocated ← draft.nextBlockId
  pure ⟨front ++ ⟨allocated.1, rows⟩ :: back, allocated.2⟩

/-- Appends a row to the last block, or to a new one when that is full. -/
def push (row : RowId) : Except Error ListOrderDraft := do
  reject (row ∈ draft.rows) (.invalidPlan ("list order repeats row " ++ row.text))
  match draft.chain.getLast?.filter (·.rows.length < maxBlockRows) with
  | some last =>
    pure { draft with chain := draft.chain.dropLast ++ [⟨last.id, last.rows ++ [row]⟩] }
  | none => draft.createBlock draft.chain [] [row]

/-- Inserts a row at a position.  A block that gets too large is split in its middle. -/
def insert (index : Nat) (row : RowId) : Except Error ListOrderDraft := do
  if draft.rows.length ≤ index then
    draft.push row
  else
    reject (row ∈ draft.rows) (.invalidPlan ("list order repeats row " ++ row.text))
    let place ← okOr (locateIndex draft.chain index)
      (.invalidPlan ("list order has no insertion position " ++ toString index))
    let rows := place.block.rows.insertIdx place.offset row
    if maxBlockRows < rows.length then
      let half := rows.length / 2
      draft.createBlock (place.front ++ [⟨place.block.id, rows.take half⟩]) place.back
        (rows.drop half)
    else
      pure { draft with chain := place.replace [⟨place.block.id, rows⟩] }

/-- The chain after a row was taken out of the block at its place. -/
def Place.removeRow (place : Place) : List OrderBlock :=
  let rows := place.block.rows.eraseIdx place.offset
  if rows = [] then
    place.replace []
  else if rows.length < minBlockRows then
    { place with block := ⟨place.block.id, rows⟩ }.mergeUnderfullBlock
  else
    place.replace [⟨place.block.id, rows⟩]

/-- Takes a row out, if it is there. -/
def remove (row : RowId) : Option ListOrderDraft :=
  (locateIndex draft.chain (draft.rows.idxOf row)).map fun place =>
    { draft with chain := place.removeRow }

/-- The blocks of a chain with their links. -/
def linked : Option UInt64 → List OrderBlock → BTreeMap UInt64 ListOrderBlock
  | _, [] => ∅
  | previous, block :: rest =>
    (linked (some block.id) rest).insert block.id
      ⟨previous, rest.head?.map OrderBlock.id, block.rows⟩

/-- The places of the rows of a chain. -/
def located (chain : List OrderBlock) : BTreeMap RowId ListOrderLocation :=
  chain.foldl (fun places block => block.rows.zipIdx.foldl
    (fun places entry => places.insert entry.1 ⟨block.id, entry.2⟩) places) ∅

/-- The order that a draft stands for. -/
def stored (version : UInt64) : ListOrder where
  firstBlock := draft.chain.head?.map OrderBlock.id
  lastBlock := draft.chain.getLast?.map OrderBlock.id
  nextBlock := draft.nextBlock
  len := draft.rows.length
  version := version
  blocks := linked none draft.chain
  locations := located draft.chain

end ListOrderDraft

namespace ListOrderPatch

/-- The patch between two orders. -/
def between (base after : ListOrder) : ListOrderPatch where
  before := base.toListOrderMetadata
  after := after.toListOrderMetadata
  blocks := stage base.blocks (differences base.blocks after.blocks)
  locations := stage base.locations (differences base.locations after.locations)

variable (patch : ListOrderPatch)

/-- The order has the metadata and the values on one side of the patch. -/
def Matches (order : ListOrder) (metadata : ListOrderMetadata)
    (side : ∀ {α : Type}, Option α × Option α → Option α) : Bool :=
  order.toListOrderMetadata == metadata && matchesChanges side patch.blocks order.blocks &&
    matchesChanges side patch.locations order.locations

def matchesBefore (order : ListOrder) : Bool :=
  patch.Matches order patch.before Prod.fst

def matchesAfter (order : ListOrder) : Bool :=
  patch.Matches order patch.after Prod.snd

/-- Commit of a patch on the order it was prepared for. -/
def applyForward (order : ListOrder) : ListOrder :=
  ⟨patch.after, applyChanges Prod.snd patch.blocks order.blocks,
    applyChanges Prod.snd patch.locations order.locations⟩

/-- Undo of a patch, also when it is undone already. -/
def applyReverseIdempotent (order : ListOrder) : Except Error ListOrder := do
  if patch.matchesBefore order then
    pure order
  else
    reject (¬patch.matchesAfter order) (.invalidPlan
      "list-order rollback no longer matches its prepared authority")
    pure ⟨patch.before, applyChanges Prod.fst patch.blocks order.blocks,
      applyChanges Prod.fst patch.locations order.locations⟩

end ListOrderPatch

namespace ListOrder

variable (order : ListOrder)

/-- The draft that an edit starts from. -/
def draft : ListOrderDraft :=
  ⟨order.chain, order.nextBlock⟩

/-- The patch that makes a draft the order, one mutation later. -/
def finish (draft : ListOrderDraft) : Except Error ListOrderPatch := do
  let version ← checkedSucc order.version
    (.evaluation "list order mutation version is exhausted")
  pure (.between order (draft.stored version))

end ListOrder

section Draft

variable {blocks : BTreeMap UInt64 ListOrderBlock} {start previous : Option UInt64} {fuel : Nat}
  {chain : List OrderBlock} {draft after : ListOrderDraft} {row : RowId} {index : Nat}

theorem ListOrder.nodup_chainFrom :
    ((chainFrom fuel blocks start).map OrderBlock.id).Nodup ∧
      ∀ block ∈ chainFrom fuel blocks start, block.id ∈ blocks := by
  induction fuel generalizing blocks start with
  | zero => simp [chainFrom]
  | succ fuel ih =>
    cases start with
    | none => simp [chainFrom]
    | some id =>
      unfold chainFrom
      split
      case h_2 => simp
      case h_1 block found =>
        obtain ⟨nodup, present⟩ := @ih (blocks.erase id) block.next
        have inside := BTreeMap.mem_iff_exists.mpr ⟨block, found⟩
        simp only [BTreeMap.mem_erase] at present
        refine ⟨nodup_cons.mpr ⟨fun again => ?_, nodup⟩, forall_mem_cons.mpr ⟨inside, ?_⟩⟩
        · obtain ⟨other, later, same⟩ := mem_map.mp again
          exact (present other later).1 same
        · exact fun other later => (present other later).2

theorem ListOrder.nodup_ids (order : ListOrder) : order.draft.ids.Nodup :=
  nodup_chainFrom.1

namespace ListOrderDraft

theorem mem_linked {id : UInt64} : id ∈ linked previous chain ↔ id ∈ chain.map OrderBlock.id := by
  induction chain generalizing previous with
  | nil => simp [linked]
  | cons block rest ih => rw [linked, BTreeMap.mem_insert, ih, map_cons, mem_cons]

theorem size_linked (nodup : (chain.map OrderBlock.id).Nodup) :
    (linked previous chain).size = chain.length := by
  induction chain generalizing previous with
  | nil => rfl
  | cons block rest ih =>
    obtain ⟨fresh, nodup⟩ := nodup_cons.mp nodup
    have absent : block.id ∉ linked (some block.id) rest := mt mem_linked.mp fresh
    simp [linked, Std.ExtTreeMap.size_insert, absent, ih nodup]

/-- A stored chain is read back. -/
theorem chainFrom_linked (nodup : (chain.map OrderBlock.id).Nodup) :
    ListOrder.chainFrom chain.length (linked previous chain) (chain.head?.map OrderBlock.id) =
      chain := by
  induction chain generalizing previous with
  | nil => rfl
  | cons block rest ih =>
    obtain ⟨fresh, nodup⟩ := nodup_cons.mp nodup
    have erased : (linked previous (block :: rest)).erase block.id =
        linked (some block.id) rest := by
      apply Std.ExtTreeMap.ext_getElem?
      intro id
      rw [linked, BTreeMap.getElem?_erase, BTreeMap.getElem?_insert]
      split
      case isTrue same =>
        rw [← same, Std.ExtTreeMap.getElem?_eq_none (mt mem_linked.mp fresh)]
      case isFalse => rfl
    rw [length_cons, head?_cons, Option.map_some, ListOrder.chainFrom, erased, linked,
      BTreeMap.getElem?_insert, if_pos rfl]
    exact congrArg (block :: ·) (ih nodup)

theorem rows_stored {version : UInt64} (nodup : draft.ids.Nodup) :
    (draft.stored version).rows = draft.rows := by
  have read : (draft.stored version).chain = draft.chain := by
    unfold ListOrder.chain stored
    rw [size_linked nodup]
    exact chainFrom_linked nodup
  rw [ListOrder.rows, read]
  rfl

variable {place : Place} {blocks : List OrderBlock}

theorem locateIndex_eq_some (found : locateIndex chain index = some place) :
    place.replace [place.block] = chain ∧ place.offset < place.block.rows.length ∧
      index = (place.front.flatMap OrderBlock.rows).length + place.offset := by
  induction chain generalizing index place with
  | nil => cases found
  | cons block rest ih =>
    unfold locateIndex at found
    split at found
    case isTrue within =>
      cases found
      exact ⟨rfl, within, (Nat.zero_add _).symm⟩
    case isFalse beyond =>
      obtain ⟨inner, later, rfl⟩ := Option.map_eq_some_iff.mp found
      obtain ⟨whole, within, counted⟩ := ih later
      refine ⟨congrArg (block :: ·) whole, within, ?_⟩
      dsimp only
      rw [flatMap_cons, length_append]
      omega

theorem locateIndex_eq_none (missing : locateIndex chain index = none) :
    (chain.flatMap OrderBlock.rows).length ≤ index := by
  induction chain generalizing index with
  | nil => exact Nat.zero_le _
  | cons block rest ih =>
    unfold locateIndex at missing
    split at missing
    case isTrue => cases missing
    case isFalse beyond =>
      have later := ih (Option.map_eq_none_iff.mp missing)
      rw [flatMap_cons, length_append]
      omega

/-- Merging keeps the rows and takes no new block. -/
theorem Place.mergeUnderfullBlock_spec :
    place.mergeUnderfullBlock.flatMap OrderBlock.rows =
      (place.replace [place.block]).flatMap OrderBlock.rows ∧
    place.mergeUnderfullBlock.map OrderBlock.id <+
      (place.replace [place.block]).map OrderBlock.id := by
  unfold Place.mergeUnderfullBlock Place.replace
  dsimp only
  split
  case h_1 next found =>
    obtain ⟨rest, same⟩ := head?_eq_some_iff.mp (Option.filter_eq_some_iff.mp found).1
    simp [same]
  case h_2 =>
    split
    case h_1 previous found =>
      obtain ⟨rest, same⟩ := getLast?_eq_some_iff.mp (Option.filter_eq_some_iff.mp found).1
      simp [same]
    case h_2 => exact ⟨rfl, .refl _⟩

theorem Place.removeRow_spec :
    place.removeRow.flatMap OrderBlock.rows = place.front.flatMap OrderBlock.rows ++
      (place.block.rows.eraseIdx place.offset ++ place.back.flatMap OrderBlock.rows) ∧
    place.removeRow.map OrderBlock.id <+ (place.replace [place.block]).map OrderBlock.id := by
  unfold Place.removeRow
  dsimp only
  split
  case isTrue emptied => simp [emptied, Place.replace]
  case isFalse =>
    split
    case isTrue =>
      obtain ⟨rows, ids⟩ := @mergeUnderfullBlock_spec
        { place with block := ⟨place.block.id, place.block.rows.eraseIdx place.offset⟩ }
      refine ⟨rows.trans ?_, ids.trans ?_⟩ <;> simp [Place.replace]
    case isFalse => simp [Place.replace]

theorem rows_of_replace (whole : place.replace [place.block] = draft.chain) :
    draft.rows = place.front.flatMap OrderBlock.rows ++
      (place.block.rows ++ place.back.flatMap OrderBlock.rows) := by
  rw [ListOrderDraft.rows, ← whole]
  simp [Place.replace]

theorem remove_eq_none (missing : draft.remove row = none) : row ∉ draft.rows := by
  have beyond := locateIndex_eq_none (Option.map_eq_none_iff.mp missing)
  exact fun member => absurd (idxOf_lt_length_of_mem member) (Nat.not_lt.mpr beyond)

theorem remove_eq_some (removed : draft.remove row = some after) :
    row ∈ draft.rows ∧ after.rows = draft.rows.erase row ∧ (draft.ids.Nodup → after.ids.Nodup) := by
  obtain ⟨place, found, rfl⟩ := Option.map_eq_some_iff.mp removed
  obtain ⟨whole, within, counted⟩ := locateIndex_eq_some found
  obtain ⟨rows, ids⟩ := @Place.removeRow_spec place
  have split := rows_of_replace whole
  have member : row ∈ draft.rows := by
    rw [← idxOf_lt_length_iff, counted, split, length_append, length_append]
    omega
  refine ⟨member, rows.trans ?_, fun nodup => ?_⟩
  · rw [erase_eq_eraseIdx_of_idxOf counted, split, eraseIdx_append_of_length_le (by omega),
      Nat.add_sub_cancel_left, eraseIdx_append_of_lt_length within]
  · rw [whole] at ids
    exact ids.nodup nodup

theorem createBlock_eq_ok {front back : List OrderBlock} {rows : List RowId}
    (created : draft.createBlock front back rows = .ok after)
    (same : (front ++ back).map OrderBlock.id = draft.ids) :
    after.rows = front.flatMap OrderBlock.rows ++ (rows ++ back.flatMap OrderBlock.rows) ∧
      (draft.ids.Nodup → after.ids.Nodup) := by
  unfold createBlock nextBlockId at created
  simp only [bind_eq_ok_iff, reject_eq_ok_iff, pure_eq_ok_iff] at created
  obtain ⟨_, ⟨_, _, _, fresh, rfl⟩, rfl⟩ := created
  refine ⟨by simp [ListOrderDraft.rows], fun nodup => ?_⟩
  rw [ids, map_append, map_cons, perm_middle.nodup_iff, ← map_append, same]
  exact nodup_cons.mpr ⟨fresh, nodup⟩

theorem push_eq_ok (pushed : draft.push row = .ok after) :
    after.rows = draft.rows ++ [row] ∧ (draft.ids.Nodup → after.ids.Nodup) := by
  unfold push at pushed
  replace pushed := (check_bind_eq_ok_iff.mp pushed).2
  split at pushed
  case h_1 last found =>
    obtain ⟨front, same⟩ := getLast?_eq_some_iff.mp (Option.filter_eq_some_iff.mp found).1
    cases pushed
    simp [ListOrderDraft.rows, ids, same]
  case h_2 => exact createBlock_eq_ok pushed (by rw [append_nil, ids])

theorem insert_eq_ok (within : index ≤ draft.rows.length)
    (inserted : draft.insert index row = .ok after) :
    after.rows = draft.rows.insertIdx index row ∧ (draft.ids.Nodup → after.ids.Nodup) := by
  unfold insert at inserted
  split at inserted
  case isTrue last =>
    rw [Nat.le_antisymm within last, insertIdx_length_self]
    exact push_eq_ok inserted
  case isFalse =>
    simp only [bind_eq_ok_iff, okOr_eq_ok_iff] at inserted
    obtain ⟨_, _, place, found, inserted⟩ := inserted
    obtain ⟨whole, inside, counted⟩ := locateIndex_eq_some found
    have placed : draft.rows.insertIdx index row = place.front.flatMap OrderBlock.rows ++
        (place.block.rows.insertIdx place.offset row ++ place.back.flatMap OrderBlock.rows) := by
      rw [rows_of_replace whole, counted, insertIdx_eq_take_drop (by simp; omega),
        insertIdx_eq_take_drop inside.le, take_length_add_append, drop_length_add_append,
        take_append_of_le_length inside.le, drop_append_of_le_length inside.le]
      simp
    have kept : draft.ids = (place.replace [place.block]).map OrderBlock.id := by rw [whole, ids]
    rw [placed]
    split at inserted
    case isTrue =>
      have created := createBlock_eq_ok inserted (by simp [kept, Place.replace])
      rwa [flatMap_append, flatMap_singleton, append_assoc, ← append_assoc (take _ _),
        take_append_drop] at created
    case isFalse =>
      cases inserted
      refine ⟨by simp [ListOrderDraft.rows, Place.replace], fun nodup => ?_⟩
      rw [kept] at nodup
      simpa [ids, Place.replace] using nodup

end ListOrderDraft

end Draft

section Patch

variable {base after : ListOrder} {patch : ListOrderPatch} {draft : ListOrderDraft}

namespace ListOrderPatch

theorem applyForward_between : (between base after).applyForward base = after := by
  simp only [applyForward, between, applyChanges_snd_differences]

theorem matchesBefore_between : (between base after).matchesBefore base = true := by
  simp [matchesBefore, Matches, between, matchesChanges_fst_stage]

theorem matchesAfter_between : (between base after).matchesAfter after = true := by
  simp [matchesAfter, Matches, between, matchesChanges_snd_differences]

/-- The reverse of a committed patch gives every block and every place back. -/
theorem reverse_between (moves : after.version ≠ base.version) :
    (between base after).matchesBefore after = false ∧
      (between base after).applyReverseIdempotent after = .ok base := by
  have moved : (between base after).matchesBefore after = false := by
    have differ : (after.toListOrderMetadata == base.toListOrderMetadata) = false :=
      beq_false_of_ne fun same => moves (congrArg ListOrderMetadata.version same)
    simp [matchesBefore, Matches, between, differ]
  refine ⟨moved, ?_⟩
  rw [applyReverseIdempotent, moved, matchesAfter_between]
  simp [reject, between, applyChanges_fst_differences]

end ListOrderPatch

theorem ListOrder.finish_eq_ok (finished : base.finish draft = .ok patch)
    (nodup : draft.ids.Nodup) :
    ∃ after, patch = .between base after ∧ after.version ≠ base.version ∧
      after.rows = draft.rows := by
  unfold finish at finished
  obtain ⟨version, counted, same⟩ := bind_eq_ok_iff.mp finished
  cases same
  refine ⟨_, rfl, fun same => ?_, ListOrderDraft.rows_stored nodup⟩
  unfold checkedSucc at counted
  split at counted
  · cases counted
  · cases counted
    simp [ListOrderDraft.stored] at same

end Patch

end BoonCircuit.Executor
