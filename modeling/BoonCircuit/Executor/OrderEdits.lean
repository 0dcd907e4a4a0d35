import BoonCircuit.Executor.Similarity
import BoonCircuit.Executor.TokenOrder

/-!
# Edits of source order

A list's order is edited by patches that are prepared without touching the list and
taken back by the same patch.  The tokens go on mirroring the order, and partitions
stay sound.
-/

namespace BoonCircuit.Executor

open Lib Checks BTreeMap Labels
open List hiding getElem?_insert

variable {V : Type}

namespace SourceOrderPatch

variable {patch : SourceOrderPatch} {list : ListState V}

/-- The patch starts from the list and changes its order. -/
structure Prepared (patch : SourceOrderPatch) (list : ListState V) : Prop where
  order : ∃ after, patch.order = .between list.order after ∧ after.version ≠ list.order.version
  next : patch.beforeNextOrderToken = list.nextOrderToken
  tokens : ∀ {row : RowId} {change : Option Nat × Option Nat},
    patch.tokens[row]? = some change → change.1 = list.orderTokens[row]?

/-- A list after the patch was committed on another one. -/
structure Commits (patch : SourceOrderPatch) (list state : ListState V) : Prop where
  order : state.order = patch.order.applyForward list.order
  tokens : state.orderTokens = applyChanges Prod.snd patch.tokens list.orderTokens
  next : state.nextOrderToken = patch.afterNextOrderToken

/-- The reverse of a committed patch gives order, tokens and allocator back. -/
theorem Prepared.reverse {state : ListState V} (prepared : patch.Prepared list)
    (commits : patch.Commits list state) :
    patch.applyReverseIdempotent state = .ok { state with
      order := list.order
      orderTokens := list.orderTokens
      nextOrderToken := list.nextOrderToken } := by
  obtain ⟨order, tokens, next⟩ := commits
  obtain ⟨after, same, moves⟩ := prepared.order
  rw [same, ListOrderPatch.applyForward_between] at order
  obtain ⟨differs, reversed⟩ := ListOrderPatch.reverse_between moves
  have unmoved : patch.matchesBefore state = false := by
    simp [matchesBefore, order, same, differs]
  have moved : patch.matchesAfter state = true := by
    simp only [matchesAfter, order, same, ListOrderPatch.matchesAfter_between, next,
      beq_self_eq_true, Bool.true_and, matchesChanges_eq_true_iff]
    intro row change found
    rw [tokens, getElem?_applyChanges, found]
    rfl
  have restored : applyChanges Prod.fst patch.tokens state.orderTokens = list.orderTokens := by
    apply Std.ExtTreeMap.ext_getElem?
    intro row
    rw [getElem?_applyChanges, tokens, getElem?_applyChanges]
    cases found : patch.tokens[row]? with
    | none => rfl
    | some => exact prepared.tokens found
  unfold applyReverseIdempotent
  rw [if_neg (by simp [unmoved]), moved, order, same, reversed, restored, prepared.next]
  rfl

end SourceOrderPatch

namespace ListState

variable {list : ListState V} {row : RowId} {patch : SourceOrderPatch}

variable {rows front back orderedRows : List RowId} {order : ListOrderPatch}
  {insertionIndex next : Nat}
  {owner : Ancestry}

theorem prepared_preparedSourceOrder {tokenAfter : BTreeMap RowId (Option Nat)}
    {draft : ListOrderDraft} (finished : list.order.finish draft = .ok order)
    (nodup : draft.ids.Nodup) :
    (list.preparedSourceOrder order tokenAfter next).Prepared list ∧
      (order.applyForward list.order).rows = draft.rows := by
  obtain ⟨after, rfl, moves, rows⟩ := ListOrder.finish_eq_ok finished nodup
  rw [ListOrderPatch.applyForward_between]
  refine ⟨⟨⟨after, rfl, moves⟩, rfl, fun {row change} found => ?_⟩, rows⟩
  rw [preparedSourceOrder, stage, Std.ExtTreeMap.getElem?_map] at found
  obtain ⟨_, _, same⟩ := Option.map_eq_some_iff.mp found
  exact congrArg Prod.fst same.symm

/-- Positive tokens ascend along the order and stay below the next one. -/
def TokensAscend (list : ListState V) : Prop :=
  Ascends (fun row => list.orderTokens[row]?.getD 0) list.order.rows list.nextOrderToken

theorem TokensAscend.draft (ascend : list.TokensAscend) :
    Ascends (list.label ∅) list.order.rows list.nextOrderToken :=
  ascend.congr (fun _ _ => by simp [label]) le_rfl

theorem tokensAscend_commit {changes : BTreeMap RowId (Option Nat)}
    (ascends : Ascends (list.label changes) (order.applyForward list.order).rows next) :
    ((list.preparedSourceOrder order changes next).applyForward list).TokensAscend := by
  refine ascends.congr (fun row _ => ?_) le_rfl
  change ((applyChanges _ _ list.orderTokens)[row]?).getD 0 = _
  rw [getElem?_applyChanges, preparedSourceOrder, stage, Std.ExtTreeMap.getElem?_map, label]
  cases changes[row]? <;> rfl

theorem preparePushOrdered_eq_ok (prepared : list.preparePushOrdered row = .ok patch) :
    patch.Prepared list ∧ (patch.applyForward list).order.rows = list.order.rows ++ [row] ∧
      row ∉ list.order.rows ∧
      (list.TokensAscend → (patch.applyForward list).TokensAscend) := by
  unfold preparePushOrdered at prepared
  rw [check_bind_eq_ok_iff, reject_eq_ok_iff, bind_eq_ok_iff] at prepared
  obtain ⟨fresh, _, checked, prepared⟩ := prepared
  simp only [bind_eq_ok_iff] at prepared
  obtain ⟨draft, pushed, order, finished, same⟩ := prepared
  cases same
  cases checkedToken_eq_ok checked
  obtain ⟨appended, distinct⟩ := ListOrderDraft.push_eq_ok pushed
  obtain ⟨prepared, rows⟩ := prepared_preparedSourceOrder finished (distinct list.order.nodup_ids)
  rw [appended] at rows
  change _ = list.order.rows ++ [row] at rows
  refine ⟨prepared, rows, fun member => fresh (.inl member), ?_⟩
  intro ascend
  apply tokensAscend_commit
  have stride : 0 < orderTokenStride := Nat.two_pow_pos 64
  generalize same : max list.nextOrderToken orderTokenStride = token at *
  have labelled : list.Labelled _ _ _ _ token (token + orderTokenStride) :=
    labelled_last ascend.draft (by omega) (by omega) (by omega)
  have inserted := labelled.insert le_rfl fun member => fresh (.inl member)
  rwa [insertIdx_length_self, ← rows] at inserted

theorem prepareRemoveOrdered_eq_ok (prepared : list.prepareRemoveOrdered row = .ok (some patch)) :
    patch.Prepared list ∧ (patch.applyForward list).order.rows = list.order.rows.erase row ∧
      (list.TokensAscend → (patch.applyForward list).TokensAscend) := by
  unfold prepareRemoveOrdered at prepared
  split at prepared
  · next draft removed =>
    rw [bind_eq_ok_iff] at prepared
    obtain ⟨order, finished, same⟩ := prepared
    cases same
    obtain ⟨_, erased, distinct⟩ := ListOrderDraft.remove_eq_some removed
    obtain ⟨prepared, rows⟩ := prepared_preparedSourceOrder finished (distinct list.order.nodup_ids)
    rw [erased] at rows
    change _ = list.order.rows.erase row at rows
    refine ⟨prepared, rows, fun ascend => tokensAscend_commit ?_⟩
    rw [rows]
    refine (ascend.draft.sublist erase_sublist).congr (fun other member => ?_) le_rfl
    rw [ascend.nodup.mem_erase_iff] at member
    unfold label
    rw [getElem?_insert, if_neg member.1.symm]
  · cases prepared

theorem foldlM_takeOutRow :
    ∀ {state final : ListOrderDraft × BTreeMap RowId (Option Nat)},
      rows.foldlM takeOutRow state = .ok final → state.1.rows.Nodup → state.1.ids.Nodup →
      state.1.rows.Perm (rows ++ final.1.rows) ∧ final.1.rows = state.1.rows.filter (· ∉ rows) ∧
        final.1.ids.Nodup ∧ ∀ row ∉ rows, final.2[row]? = state.2[row]? := by
  induction rows with
  | nil =>
    intro state final folded _ distinct
    cases folded
    exact ⟨.refl _, (filter_eq_self.mpr (by simp)).symm, distinct, fun _ _ => rfl⟩
  | cons row rows ih =>
    intro state final folded nodup distinct
    rw [foldlM_cons, bind_eq_ok_iff] at folded
    obtain ⟨_, taken, folded⟩ := folded
    unfold takeOutRow at taken
    rw [bind_eq_ok_iff] at taken
    obtain ⟨draft, removed, same⟩ := taken
    cases same
    obtain ⟨member, erased, kept_distinct⟩ :=
      ListOrderDraft.remove_eq_some (okOr_eq_ok_iff.mp removed)
    obtain ⟨perm, rest, distinct, kept⟩ :=
      ih folded (erased ▸ nodup.erase row) (kept_distinct distinct)
    dsimp only at perm rest
    rw [erased] at perm rest
    refine ⟨(perm_cons_erase member).trans (perm.cons row), rest.trans ?_, distinct, ?_⟩
    · rw [nodup.erase_eq_filter, filter_filter]
      apply filter_congr
      intro other _
      rw [Bool.eq_iff_iff]
      simp [and_comm]
    · intro other outside
      rw [mem_cons, not_or] at outside
      rw [kept other outside.2, getElem?_insert, if_neg (Ne.symm outside.1)]

theorem foldlM_putRowBack :
    ∀ {offset : Nat} {state final : ListOrderDraft × BTreeMap RowId (Option Nat) × Nat},
      (rows.zipIdx offset).foldlM (list.putRowBack insertionIndex) state = .ok final →
      state.1.rows = front ++ back → front.length = insertionIndex + offset → state.1.ids.Nodup →
      final.1.rows = front ++ rows ++ back ∧ final.1.ids.Nodup ∧
        (Ascends (list.label state.2.1) state.1.rows state.2.2 → (rows ++ state.1.rows).Nodup →
          Ascends (list.label final.2.1) final.1.rows final.2.2) := by
  induction rows generalizing front with
  | nil =>
    intro offset state final folded split _ distinct
    cases folded
    exact ⟨by rw [split, append_nil], distinct, fun ascends _ => ascends⟩
  | cons row rows ih =>
    intro offset state final folded split length distinct
    rw [zipIdx_cons, foldlM_cons, bind_eq_ok_iff] at folded
    obtain ⟨_, put, folded⟩ := folded
    unfold putRowBack at put
    simp only [bind_eq_ok_iff] at put
    obtain ⟨⟨_, _, _⟩, found, draft, inserted, same⟩ := put
    cases same
    have within : insertionIndex + offset ≤ state.1.rows.length := by
      rw [split, length_append, length]
      exact Nat.le_add_right _ _
    obtain ⟨grown, kept_distinct⟩ := ListOrderDraft.insert_eq_ok within inserted
    have placed : draft.rows = (front ++ [row]) ++ back := by
      rw [grown, insertIdx_eq_take_drop within, split, ← length, take_left, drop_left,
        append_assoc, singleton_append]
    obtain ⟨final, distinct, ascends⟩ :=
      ih folded placed (by rw [length_append, length]; rfl) (kept_distinct distinct)
    refine ⟨by simp [final], distinct, fun before nodup => ascends ?_ ?_⟩
    · dsimp only
      rw [grown]
      apply (labelled_of_insertion before within found).insert within
      exact fun member => (nodup_cons.mp nodup).1 (mem_append_right rows member)
    · dsimp only
      rw [grown]
      have perm := (perm_insertIdx row state.1.rows within).append_left rows
      exact (perm.trans perm_middle).nodup_iff.mpr nodup

theorem prepareReorderRows_eq_ok (nodup : list.order.rows.Nodup)
    (prepared : list.prepareReorderRows insertionIndex orderedRows = .ok (some patch)) :
    patch.Prepared list ∧ ∃ front back,
      front ++ back = list.order.rows.filter (· ∉ orderedRows) ∧
      (patch.applyForward list).order.rows = front ++ orderedRows ++ back ∧
      list.order.rows.Perm (orderedRows ++ (front ++ back)) ∧
      front.length = min insertionIndex (front ++ back).length ∧
      (list.TokensAscend → (patch.applyForward list).TokensAscend) := by
  unfold prepareReorderRows at prepared
  rw [check_bind_eq_ok_iff] at prepared
  replace prepared := prepared.2
  unfold prepareMoveRows at prepared
  split at prepared
  · cases prepared
  · rw [bind_eq_ok_iff] at prepared
    obtain ⟨removed, taken, prepared⟩ := prepared
    rw [bind_eq_ok_iff] at prepared
    obtain ⟨_, put, prepared⟩ := prepared
    rw [bind_eq_ok_iff] at prepared
    obtain ⟨order, finished, same⟩ := prepared
    cases same
    obtain ⟨perm, rest, distinct, kept⟩ := foldlM_takeOutRow taken nodup list.order.nodup_ids
    change list.order.rows.Perm _ at perm
    change removed.1.rows = list.order.rows.filter _ at rest
    have length := perm.length_eq
    rw [length_append] at length
    generalize position : min insertionIndex (list.order.rows.length - orderedRows.length) = index
      at put
    obtain ⟨placed, distinct, ascends⟩ := foldlM_putRowBack put
      (take_append_drop index removed.1.rows).symm (by rw [length_take]; omega) distinct
    obtain ⟨prepared, rows⟩ := prepared_preparedSourceOrder finished distinct
    refine ⟨prepared, removed.1.rows.take index, removed.1.rows.drop index, ?_, ?_,
      ?_, ?_, fun ascend => tokensAscend_commit ?_⟩
    · rw [take_append_drop, rest]
    · exact rows.trans placed
    · rw [take_append_drop]
      exact perm
    · rw [take_append_drop, length_take]
      omega
    · rw [rows]
      apply ascends
      · dsimp only
        rw [rest]
        refine (ascend.draft.sublist filter_sublist).congr (fun row member => ?_) le_rfl
        unfold label
        rw [kept row (by simpa using (List.mem_filter.mp member).2)]
      · exact perm.nodup_iff.mp nodup

/-- A reordering of one owner's rows gives that owner the new order and keeps the others. -/
theorem rowsUnder_of_reordered (perm : orderedRows.Perm (list.rowsUnder rows owner))
    (rest : front ++ back = rows.filter (· ∉ orderedRows)) :
    list.rowsUnder (front ++ orderedRows ++ back) owner = orderedRows ∧
      ∀ other, other ≠ owner →
        list.rowsUnder (front ++ orderedRows ++ back) other = list.rowsUnder rows other := by
  have under : ∀ other, list.rowsUnder (front ++ orderedRows ++ back) other =
      list.rowsUnder front other ++ list.rowsUnder orderedRows other ++
        list.rowsUnder back other := by
    intro other
    unfold rowsUnder
    rw [filter_append, filter_append]
  have outside : ∀ other, list.rowsUnder front other ++ list.rowsUnder back other =
      (list.rowsUnder rows other).filter (· ∉ orderedRows) := by
    intro other
    unfold rowsUnder
    rw [← filter_append, rest, filter_filter, filter_filter]
    apply filter_congr
    intro id _
    exact Bool.and_comm _ _
  constructor
  · have nothing : (list.rowsUnder rows owner).filter (· ∉ orderedRows) = [] := by
      rw [filter_eq_nil_iff]
      intro id member
      simpa using perm.mem_iff.mpr member
    have empty := (outside owner).trans nothing
    rw [append_eq_nil_iff] at empty
    rw [under, empty.1, empty.2, nil_append, append_nil]
    unfold rowsUnder
    rw [filter_eq_self]
    intro id member
    obtain ⟨_, row, found, owns⟩ := mem_rowsUnder.mp (perm.mem_iff.mp member)
    simp [found, owns]
  · intro other apart
    have elsewhere : ∀ id ∈ orderedRows, id ∉ list.rowsUnder rows other := by
      intro id member present
      obtain ⟨_, row, found, owns⟩ := mem_rowsUnder.mp (perm.mem_iff.mp member)
      obtain ⟨_, _, again, otherOwns⟩ := mem_rowsUnder.mp present
      rw [found] at again
      cases again
      exact apart (otherOwns.symm.trans owns)
    have nothing : list.rowsUnder orderedRows other = [] := by
      rw [eq_nil_iff_forall_not_mem]
      intro id member
      obtain ⟨moved, row, found, owns⟩ := mem_rowsUnder.mp member
      obtain ⟨present, _⟩ := mem_rowsUnder.mp (perm.mem_iff.mp moved)
      exact elsewhere id moved (mem_rowsUnder.mpr ⟨present, row, found, owns⟩)
    rw [under, nothing, append_nil, outside, filter_eq_self]
    intro id member
    simpa using fun moved => elsewhere id moved member

section Structure

variable {listId : ListId} {content : Row V}

variable {nextKey : UInt64}

theorem getElem?_rows_appended :
    (list.appended patch nextKey row content).rows[row]? = some content := by
  simp [appended]

theorem PartitionsSound.appended (sound : list.PartitionsSound)
    (fresh : row ∉ list.rows) (leaf : content.ownerAncestry.getLast? = some row) :
    ((list.appended patch nextKey row content).indexOwnerPartitionRow row).2.PartitionsSound := by
  rw [(indexOwnerPartitionRow_spec getElem?_rows_appended leaf).1]
  have ordered : (patch.applyForward list).PartitionsSound := ⟨sound.filed, sound.origin⟩
  have filed : ({ patch.applyForward list with
      rows := list.rows.insert row content }.fileRow row content).PartitionsSound :=
    ordered.fileRow fresh
  exact ⟨filed.filed, filed.origin⟩

theorem WellFormed.append (wellFormed : list.WellFormed listId)
    (fresh : row ∉ list.order.rows)
    (order : (patch.applyForward list).order.rows = list.order.rows ++ [row])
    (home : row.list = listId) (leaf : content.ownerAncestry.getLast? = some row)
    (indexed : ((list.appended patch nextKey row content).indexOwnerPartitionRow row).1 = .ok ()) :
    ((list.appended patch nextKey row content).indexOwnerPartitionRow row).2.WellFormed listId := by
  have found : (list.appended patch nextKey row content).rows[row]? = some content :=
    getElem?_rows_appended
  have kept : ∀ other ∈ list.order.rows,
      (list.appended patch nextKey row content).rows[other]? = list.rows[other]? := by
    intro other member
    have apart : ¬row = other := fun same => fresh (same ▸ member)
    rw [appended, getElem?_insert, if_neg apart]
  have under : ∀ owner, (list.appended patch nextKey row content).rowsUnder list.order.rows owner =
      list.rowsUnder list.order.rows owner := by
    intro owner
    apply filter_congr
    intro other member
    rw [kept other member]
  have filed : (list.appended patch nextKey row content).Filed list.order.rows := by
    refine ⟨fun owner => ?_, fun {owner origin other} => ?_, wellFormed.partitions.inhabited⟩
    · rw [under]
      exact wellFormed.partitions.order owner
    · rw [under]
      refine wellFormed.partitions.origin.trans (and_congr_right fun member => ?_)
      rw [kept other (mem_rowsUnder.mp member).1]
  obtain ⟨indexed, filed⟩ :=
    filed.index found leaf ((indexOwnerPartitionRow_spec found leaf).2.mp indexed)
  rw [indexed]
  have rows : ((list.appended patch nextKey row content).fileRow row content).order.rows =
      list.order.rows ++ [row] := order
  refine ⟨?_, ?_, ?_, rows ▸ filed⟩
  · intro other
    rw [rows, mem_append, mem_singleton, wellFormed.mem_order]
    change _ ↔ other ∈ list.rows.insert row content
    rw [mem_insert, or_comm]
  · rw [rows]
    refine nodup_append.mpr ⟨wellFormed.nodup, by simp, ?_⟩
    rintro other member _ here rfl
    exact fresh (mem_singleton.mp here ▸ member)
  · intro other otherRow present
    rcases getElem?_insert_eq_some_iff.mp present with ⟨rfl, rfl⟩ | ⟨_, present⟩
    · exact ⟨home, leaf⟩
    · exact wellFormed.owned present

theorem WellFormed.remove (wellFormed : list.WellFormed listId)
    (found : list.rows[row]? = some content)
    (order : (patch.applyForward list).order.rows = list.order.rows.erase row)
    : ((patch.applyForward list).dropRow row content).WellFormed listId := by
  have leaf := (wellFormed.owned found).2
  have member : row ∈ list.order.rows :=
    wellFormed.mem_order.mpr (mem_iff_exists.mpr ⟨content, found⟩)
  have filed : (patch.applyForward list).Filed list.order.rows :=
    { wellFormed.partitions with }
  have rows : ((patch.applyForward list).dropRow row content).order.rows =
      list.order.rows.filter (· ≠ row) := by
    rw [dropRow_eq]
    change (patch.applyForward list).order.rows = _
    rw [order, wellFormed.nodup.erase_eq_filter]
    apply filter_congr
    intro other _
    rw [Bool.eq_iff_iff]
    simp
  refine ⟨?_, ?_, ?_, rows ▸ filed.dropRow member found leaf⟩
  · intro other
    rw [rows, rows_dropRow, mem_filter, wellFormed.mem_order]
    change _ ↔ other ∈ list.rows.erase row
    rw [mem_erase, decide_eq_true_iff, and_comm]
  · rw [rows]
    exact wellFormed.nodup.filter _
  · intro other otherRow present
    rw [rows_dropRow] at present
    exact wellFormed.owned (getElem?_erase_eq_some_iff.mp present).2

theorem WellFormed.reorder (wellFormed : list.WellFormed listId)
    (partition : orderedRows.Perm (list.rowsUnder list.order.rows owner))
    (rest : front ++ back = list.order.rows.filter (· ∉ orderedRows))
    (order : (patch.applyForward list).order.rows = front ++ orderedRows ++ back)
    (perm : list.order.rows.Perm (orderedRows ++ (front ++ back))) :
    (list.reordered patch owner orderedRows).WellFormed listId := by
  have moved : (patch.applyForward list).order.rows.Perm list.order.rows := by
    rw [order, append_assoc]
    exact perm_append_comm_assoc _ _ _ |>.trans perm.symm
  obtain ⟨own, others⟩ := rowsUnder_of_reordered partition rest
  rw [← order] at own others
  have filed := wellFormed.partitions.reorder own partition others
  refine ⟨?_, moved.nodup_iff.mpr wellFormed.nodup, wellFormed.owned, ?_⟩
  · intro id
    exact moved.mem_iff.trans wellFormed.mem_order
  · exact { filed with }

end Structure

end ListState

open ListState

variable {list : ListState V} {patch : SourceOrderPatch}

/-- The rows with another token than before. -/
def SourceOrderPatch.changedOrderRows (patch : SourceOrderPatch) : List RowId :=
  (patch.tokens.toList.filter fun entry => entry.2.1 ≠ entry.2.2).map Prod.fst

def ListState.restoreSourceOrder (list : ListState V) :
    Option SourceOrderPatch → Except Error (ListState V)
  | some patch => patch.applyReverseIdempotent list
  | none => .ok list

/-- An edit of the order. -/
inductive OrderEdit where
  | push (row : RowId)
  | remove (row : RowId)
  | reorder (insertionIndex : Nat) (orderedRows : List RowId)

namespace OrderEdit

def prepare (list : ListState V) : OrderEdit → Except Error (Option SourceOrderPatch)
  | .push row => some <$> list.preparePushOrdered row
  | .remove row => list.prepareRemoveOrdered row
  | .reorder insertionIndex orderedRows => list.prepareReorderRows insertionIndex orderedRows

/-- Prepares an edit and commits it. -/
def run (edit : OrderEdit) (list : ListState V) :
    Except Error (Option SourceOrderPatch) × ListState V :=
  match edit.prepare list with
  | .ok (some patch) => (.ok (some patch), patch.applyForward list)
  | .ok none => (.ok none, list)
  | .error error => (.error error, list)

/-- Where an edit leaves the rows. -/
def Places (rows after : List RowId) : OrderEdit → Prop
  | .push row => after = rows ++ [row]
  | .remove row => after = rows.erase row
  | .reorder insertionIndex orderedRows => ∃ front back,
      front ++ back = rows.filter (· ∉ orderedRows) ∧ after = front ++ orderedRows ++ back ∧
        front.length = min insertionIndex (front ++ back).length

end OrderEdit

theorem SourceOrderPatch.Prepared.mem_changedOrderRows {row : RowId}
    (prepared : patch.Prepared list) :
    row ∈ patch.changedOrderRows ↔
      (patch.applyForward list).orderTokens[row]? ≠ list.orderTokens[row]? := by
  change _ ↔ (applyChanges Prod.snd patch.tokens list.orderTokens)[row]? ≠ _
  rw [getElem?_applyChanges]
  simp only [changedOrderRows, mem_map, List.mem_filter, mem_toList_iff, decide_eq_true_eq]
  constructor
  · rintro ⟨_, ⟨found, differ⟩, rfl⟩
    rw [found, ← prepared.tokens found]
    exact differ.symm
  · intro differ
    cases found : patch.tokens[row]? with
    | none => simp [found] at differ
    | some change =>
      rw [found, ← prepared.tokens found] at differ
      exact ⟨(row, change), ⟨found, differ.symm⟩, rfl⟩

theorem SourceOrderPatch.Prepared.again (prepared : patch.Prepared list) {state : ListState V}
    (order : state.order = list.order) (tokens : state.orderTokens = list.orderTokens)
    (next : state.nextOrderToken = list.nextOrderToken) :
    patch.applyReverseIdempotent state = .ok state := by
  have unmoved : patch.matchesBefore state = true := by
    obtain ⟨after, same, _⟩ := prepared.order
    simp only [matchesBefore, order, tokens, next, same, ListOrderPatch.matchesBefore_between,
      prepared.next, beq_self_eq_true, Bool.true_and, matchesChanges_eq_true_iff]
    exact fun row change found => (prepared.tokens found).symm
  rw [applyReverseIdempotent, if_pos unmoved]
  rfl

theorem ListState.prepareReorderRows_eq_none {insertionIndex : Nat} {orderedRows : List RowId}
    (nodup : list.order.rows.Nodup)
    (prepared : list.prepareReorderRows insertionIndex orderedRows = .ok none) :
    (OrderEdit.reorder insertionIndex orderedRows).Places list.order.rows list.order.rows := by
  unfold prepareReorderRows at prepared
  rw [check_bind_eq_ok_iff] at prepared
  replace prepared := prepared.2
  unfold prepareMoveRows at prepared
  generalize position : min insertionIndex (list.order.rows.length - orderedRows.length) = index
    at prepared
  split at prepared
  · next same =>
      have whole := take_append_drop index list.order.rows
      rw [← take_append_drop orderedRows.length (list.order.rows.drop index), same,
        drop_drop] at whole
      refine ⟨_, _, ?_, whole.symm.trans (append_assoc _ _ _).symm, ?_⟩
      · rw [← whole, nodup_append, nodup_append] at nodup
        obtain ⟨_, ⟨_, _, behind⟩, ahead⟩ := nodup
        conv_rhs => rw [← whole]
        rw [filter_append, filter_append, filter_eq_self.mpr, filter_eq_nil_iff.mpr,
          filter_eq_self.mpr, nil_append]
        · simpa using fun row late early => behind row early row late rfl
        · simp
        · simpa using fun row early late => ahead row early row (mem_append_left _ late) rfl
      · rw [length_append, length_take, length_drop]
        omega
  · obtain ⟨_, _, prepared⟩ := bind_eq_ok_iff.mp prepared
    obtain ⟨_, _, prepared⟩ := bind_eq_ok_iff.mp prepared
    obtain ⟨_, _, impossible⟩ := bind_eq_ok_iff.mp prepared
    cases impossible

namespace OrderEdit

theorem prepare_eq_ok {edit : OrderEdit} {undo : Option SourceOrderPatch}
    (ascend : list.TokensAscend) (prepared : edit.prepare list = .ok undo) :
    undo = none ∧ edit.Places list.order.rows list.order.rows ∨
      ∃ patch, undo = some patch ∧ patch.Prepared list ∧ (patch.applyForward list).TokensAscend ∧
        edit.Places list.order.rows (patch.applyForward list).order.rows := by
  cases edit with
  | push =>
    obtain ⟨patch, pushed, rfl⟩ := map_eq_ok_iff.mp prepared
    obtain ⟨prepared, rows, _, ascends⟩ := preparePushOrdered_eq_ok pushed
    exact .inr ⟨patch, rfl, prepared, ascends ascend, rows⟩
  | remove row =>
    cases undo with
    | none =>
      change list.prepareRemoveOrdered row = _ at prepared
      unfold prepareRemoveOrdered at prepared
      split at prepared
      · obtain ⟨_, _, impossible⟩ := bind_eq_ok_iff.mp prepared
        cases impossible
      · next absent =>
          exact .inl ⟨rfl, (erase_of_not_mem (ListOrderDraft.remove_eq_none absent)).symm⟩
    | some patch =>
      obtain ⟨prepared, rows, ascends⟩ := prepareRemoveOrdered_eq_ok prepared
      exact .inr ⟨patch, rfl, prepared, ascends ascend, rows⟩
  | reorder =>
    cases undo with
    | none => exact .inl ⟨rfl, prepareReorderRows_eq_none ascend.nodup prepared⟩
    | some patch =>
      obtain ⟨prepared, front, back, rest, rows, _, length, ascends⟩ :=
        prepareReorderRows_eq_ok ascend.nodup prepared
      exact .inr ⟨patch, rfl, prepared, ascends ascend, front, back, rest, rows, length⟩

end OrderEdit

/-- Tokens mirror the order under every edit: what is reported is what changed, a failure leaves
the list alone, and an edit is taken back exactly and more than once.  A row is put into a draft
with at most 256 new tokens for others. -/
theorem order_edits_mirror_tokens (list : ListState V) (ascend : list.TokensAscend) :
    (∀ (edit : OrderEdit) (after : ListState V),
      (∀ error, edit.run list = (.error error, after) → after = list) ∧
      ∀ undo, edit.run list = (.ok undo, after) →
        after.TokensAscend ∧ edit.Places list.order.rows after.order.rows ∧
        (∀ row, row ∈ undo.elim [] SourceOrderPatch.changedOrderRows ↔
          after.orderTokens[row]? ≠ list.orderTokens[row]?) ∧
        ∀ state : ListState V, state.order = after.order →
          state.orderTokens = after.orderTokens → state.nextOrderToken = after.nextOrderToken →
          ∃ restored, restored = { state with
              order := list.order
              orderTokens := list.orderTokens
              nextOrderToken := list.nextOrderToken } ∧
            state.restoreSourceOrder undo = .ok restored ∧
            restored.restoreSourceOrder undo = .ok restored) ∧
    ∀ {draft changes next index row inserted}, Ascends (list.label changes) draft.rows next →
      index ≤ draft.rows.length → row ∉ draft.rows →
      list.putRowBack index (draft, changes, next) (row, 0) = .ok inserted →
      inserted.1.rows = draft.rows.insertIdx index row ∧
        Ascends (list.label inserted.2.1) inserted.1.rows inserted.2.2 ∧
        ∃ window, window <+ draft.rows ∧ window.length ≤ 256 ∧
          ∀ other ∉ window, other ≠ row → inserted.2.1[other]? = changes[other]? := by
  refine ⟨fun edit after => ⟨fun error ran => ?_, fun undo ran => ?_⟩, ?_⟩
  · unfold OrderEdit.run at ran
    split at ran <;> cases ran
    rfl
  · unfold OrderEdit.run at ran
    split at ran
    · next patch prepared =>
        cases ran
        obtain ⟨impossible, _⟩ | ⟨_, ⟨⟩, patched, ascends, places⟩ :=
          OrderEdit.prepare_eq_ok ascend prepared
        · cases impossible
        · exact ⟨ascends, places, fun _ => patched.mem_changedOrderRows,
            fun state order tokens next => ⟨_, rfl, patched.reverse ⟨order, tokens, next⟩,
              patched.again rfl rfl rfl⟩⟩
    · next prepared =>
        cases ran
        obtain ⟨_, places⟩ | ⟨_, impossible, _⟩ := OrderEdit.prepare_eq_ok ascend prepared
        · refine ⟨ascend, places, by simp, fun state order tokens next => ⟨state, ?_, rfl, rfl⟩⟩
          rw [← order, ← tokens, ← next]
        · cases impossible
    · cases ran
  · intro draft changes next index row inserted ascends within fresh put
    unfold ListState.putRowBack at put
    simp only [bind_eq_ok_iff] at put
    obtain ⟨⟨_, after, _⟩, found, _, put, same⟩ := put
    cases same
    have grown := (ListOrderDraft.insert_eq_ok within put).1
    have labelled := ListState.labelled_of_insertion ascends within found
    obtain ⟨window, sub, small, kept⟩ := labelled.relabelled
    refine ⟨grown, ?_, window, sub, small, fun other outside apart => ?_⟩
    · dsimp only
      rw [grown]
      exact labelled.insert within fresh
    · rw [BTreeMap.getElem?_insert, if_neg apart.symm]
      exact kept other outside

/-- Three rows in one block whose tokens leave no room between them. -/
def crowdedList : ListState Nat where
  rows := [⟨0, 1, 0⟩, ⟨0, 2, 0⟩, ⟨0, 3, 0⟩].foldl
    (fun rows row => rows.insert row ⟨[row], none, ∅, ∅⟩) ∅
  order := ListOrderDraft.stored ⟨[⟨1, [⟨0, 1, 0⟩, ⟨0, 2, 0⟩, ⟨0, 3, 0⟩]⟩], 2⟩ 3
  orderTokens := [(⟨0, 1, 0⟩, 1), (⟨0, 2, 0⟩, 2), (⟨0, 3, 0⟩, 3)].foldl
    (fun tokens entry => tokens.insert entry.1 entry.2) ∅
  nextOrderToken := 4
  revision := 0
  ownerPartitions := ∅
  nextKey := 4

/-- The last of three crowded rows moves between the others, which gives the middle row another
token, and back. -/
theorem reorder_of_crowdedList : ∃ undo after,
    (OrderEdit.reorder 1 [⟨0, 3, 0⟩]).run crowdedList = (.ok undo, after) ∧
      after.TokensAscend ∧ after.order.rows = [⟨0, 1, 0⟩, ⟨0, 3, 0⟩, ⟨0, 2, 0⟩] ∧
      (∀ row, row ∈ undo.elim [] SourceOrderPatch.changedOrderRows ↔
        after.orderTokens[row]? ≠ crowdedList.orderTokens[row]?) ∧
      after.restoreSourceOrder undo = .ok crowdedList := by
  have ascend : crowdedList.TokensAscend := ⟨by decide, by decide⟩
  have run : ∃ undo after, (OrderEdit.reorder 1 [⟨0, 3, 0⟩]).run crowdedList = (.ok undo, after) ∧
      after.order.rows = [⟨0, 1, 0⟩, ⟨0, 3, 0⟩, ⟨0, 2, 0⟩] ∧ after.rows = crowdedList.rows ∧
      after.ownerPartitions = ∅ ∧ after.revision = 0 ∧ after.nextKey = 4 :=
    ⟨_, _, rfl, by decide, rfl, rfl, rfl, rfl⟩
  obtain ⟨undo, after, ran, rows, same, partitions, revision, nextKey⟩ := run
  obtain ⟨ascends, _, changed, undone⟩ :=
    ((order_edits_mirror_tokens crowdedList ascend).1 _ after).2 undo ran
  obtain ⟨_, rfl, restored, _⟩ := undone after rfl rfl rfl
  rw [same, partitions, revision, nextKey] at restored
  exact ⟨undo, after, ran, ascends, rows, changed, restored⟩

end BoonCircuit.Executor
