import BoonCircuit.Executor.SourceOrder
import BoonCircuit.Lib.Labels

/-!
# Tokens mirror the order

The tokens of a list ascend along its order.  A row that is put into a prepared order
gets a token between its neighbours; a relabelled window keeps the tokens ascending.
-/

namespace BoonCircuit.Executor.ListState

open Lib Checks Labels List Option

variable {V : Type} {list : ListState V} {order : List RowId} {row other : RowId}
  {changes after : BTreeMap RowId (Option Nat)} {index next token limit : Nat} {detail : String}

/-- The token of a row once the changes are committed, zero if it has none. -/
def label (list : ListState V) (changes : BTreeMap RowId (Option Nat)) (row : RowId) : Nat :=
  (changes[row]?.getD list.orderTokens[row]?).getD 0

theorem label_insert : list.label (changes.insert row (some token)) other =
    if row = other then token else list.label changes other := by
  unfold label
  rw [BTreeMap.getElem?_insert]
  split <;> rfl

theorem stagedOrderToken_of_pos (positive : 0 < list.label changes row) :
    list.stagedOrderToken changes row = some (list.label changes row) := by
  unfold label at *
  unfold stagedOrderToken
  generalize changes[row]? = change at *
  rcases change with _ | _ | _
  · change 0 < list.orderTokens[row]?.getD 0 at positive
    cases found : list.orderTokens[row]? with
    | none => simp [found] at positive
    | some => simp
  · cases positive
  · rfl

theorem checkedToken_eq_ok {result : Nat}
    (checked : checkedToken token detail = .ok result) : token = result := by
  unfold checkedToken at checked
  rw [okOr_eq_ok_iff] at checked
  split at checked
  · exact some.inj checked
  · cases checked

/-- A relabelled window gives its rows the spread labels and keeps the other changes. -/
theorem foldlM_relabel {window : List (RowId × Nat)} {label : RowId × Nat → Nat} :
    ∀ {before after : BTreeMap RowId (Option Nat)}, window.foldlM (fun changes entry => do
        let token ← checkedToken (label entry) detail
        pure (changes.insert entry.1 (some token))) before = .ok after →
      (window.map Prod.fst).Nodup →
      (∀ entry ∈ window, after[entry.1]? = some (some (label entry))) ∧
        ∀ row ∉ window.map Prod.fst, after[row]? = before[row]? := by
  induction window with
  | nil =>
    intro before after folded _
    cases folded
    simp
  | cons first window ih =>
    intro before after folded nodup
    rw [foldlM_cons, bind_eq_ok_iff] at folded
    obtain ⟨_, stepped, folded⟩ := folded
    obtain ⟨token, checked, same⟩ := bind_eq_ok_iff.mp stepped
    cases same
    cases checkedToken_eq_ok checked
    obtain ⟨fresh, nodup⟩ := nodup_cons.mp nodup
    obtain ⟨written, kept⟩ := ih folded nodup
    refine ⟨forall_mem_cons.mpr ⟨?_, written⟩, fun row outside => ?_⟩
    · rw [kept _ fresh, BTreeMap.getElem?_insert, if_pos rfl]
    · rw [map_cons, mem_cons, not_or] at outside
      rw [kept row outside.2, BTreeMap.getElem?_insert, if_neg (Ne.symm outside.1)]

/-- A token for a row at an index, and what it took: tokens that ascend, with room for the row,
and few relabelled rows. -/
structure Labelled (list : ListState V) (order : List RowId) (index : Nat)
    (changes after : BTreeMap RowId (Option Nat)) (token limit : Nat) : Prop where
  ascends : Ascends (list.label after) order limit
  between : Between (list.label after) order index token limit
  relabelled : ∃ window, window <+ order ∧ window.length ≤ maxRelabelRows ∧
    ∀ row ∉ window, after[row]? = changes[row]?

section Draft

variable (ascends : Ascends (list.label changes) order next)

include ascends

theorem label_le_tokenBefore (within : index ≤ order.length) (member : row ∈ order.take index) :
    list.label changes row ≤ list.tokenBefore order changes index := by
  cases index with
  | zero => cases member
  | succ position =>
    have found := getElem?_eq_getElem within
    have sorted := ascends.sorted.sublist (take_sublist (position + 1) order)
    have bounds := ascends.bounds _ (getElem_mem within)
    rw [take_add_one, found] at member sorted
    rw [tokenBefore, found, bind_some, stagedOrderToken_of_pos bounds.1, getD_some]
    rcases mem_append.mp member with inFront | last
    · exact ((pairwise_append.mp sorted).2.2 _ inFront _ mem_cons_self).le
    · rw [mem_singleton.mp last]

theorem le_label_of_mem_drop (found : order[index]? = some other)
    (member : row ∈ order.drop index) : list.label changes other ≤ list.label changes row := by
  have sorted := ascends.sorted.sublist (drop_sublist index order)
  rw [drop_eq_getElem?_toList_append, found] at member sorted
  rcases mem_cons.mp member with rfl | later
  · exact le_rfl
  · exact ((pairwise_cons.mp sorted).1 row later).le

theorem upper_bounds {stop upper : Nat} (bound : (match order[stop]? with
      | some row => okOr (list.stagedOrderToken changes row)
          (Error.invalidPlan "list order token is missing")
      | none => .ok next) = .ok upper) :
    (∀ row ∈ order.drop stop, upper ≤ list.label changes row) ∧ upper ≤ next := by
  cases found : order[stop]? with
  | none =>
    rw [found] at bound
    cases bound
    rw [drop_eq_nil_of_le (getElem?_eq_none_iff.mp found)]
    exact ⟨nofun, le_rfl⟩
  | some row =>
    have bounds := ascends.bounds row (mem_of_getElem? found)
    rw [found] at bound
    dsimp only at bound
    rw [stagedOrderToken_of_pos bounds.1] at bound
    cases bound
    exact ⟨fun _ => le_label_of_mem_drop ascends found, bounds.2.le⟩

theorem labelled_of_relabel : ∀ {fuel window : Nat}, window ≤ maxRelabelRows →
    list.prepareBoundedRelabel order index changes next fuel window = .ok (token, after) →
    list.Labelled order index changes after token next := by
  intro fuel
  induction fuel with
  | zero => exact nofun
  | succ fuel ih =>
    intro window small done
    unfold prepareBoundedRelabel at done
    dsimp only at done
    have length : min (index - window / 2 + window) order.length ≤ order.length :=
      min_le_right _ _
    generalize min (index - window / 2 + window) order.length = stop at *
    have size : stop - (stop - window) ≤ window := by omega
    generalize stop - window = start at *
    rw [check_bind_eq_ok_iff, reject_eq_ok_iff, not_or, not_lt, not_lt] at done
    obtain ⟨⟨reaches, within⟩, done⟩ := done
    obtain ⟨upper, bound, done⟩ := bind_eq_ok_iff.mp done
    rw [check_bind_eq_ok_iff, reject_eq_ok_iff] at done
    obtain ⟨le, done⟩ := done
    split at done
    · next spaced =>
        obtain ⟨_, folded, done⟩ := bind_eq_ok_iff.mp done
        obtain ⟨_, checked, same⟩ := bind_eq_ok_iff.mp done
        cases same
        cases checkedToken_eq_ok checked
        have whole : order = order.take start ++
            ((order.drop start).take (stop - start) ++ order.drop stop) := by
          have tail : order.drop stop = (order.drop start).drop (stop - start) := by
            rw [drop_drop, Nat.add_sub_cancel' (reaches.trans within)]
          rw [tail, take_append_drop, take_append_drop]
        have nodup := ascends.nodup
        rw [whole, nodup_append, nodup_append] at nodup
        obtain ⟨_, ⟨_, _, behind⟩, ahead⟩ := nodup
        obtain ⟨written, kept⟩ := foldlM_relabel folded (by rwa [zipIdx_map_fst 0])
        rw [zipIdx_map_fst] at kept
        have same : ∀ row ∉ (order.drop start).take (stop - start),
            list.label after row = list.label changes row := by
          intro row outside
          unfold label
          rw [kept row outside]
        obtain ⟨high, limit⟩ := upper_bounds ascends bound
        obtain ⟨ascends, between⟩ := ascends.spread reaches within
          (fun row member => ⟨label_le_tokenBefore ascends (by omega) member,
            same row fun inside => ahead row member row (mem_append_left _ inside) rfl⟩)
          (fun row member => ⟨high row member, same row fun inside =>
            behind row inside row member rfl⟩)
          (fun entry member => by
            unfold label
            rw [written entry member]
            rfl)
          (by
            have room := Nat.div_mul_le_self
              (upper - list.tokenBefore order changes start) (stop - start + 2)
            omega) spaced limit
        refine ⟨ascends, between, _, ?_, (length_take_le _ _).trans (size.trans small), kept⟩
        exact (take_sublist _ _).trans (drop_sublist _ _)
    · split at done
      · cases done
      · exact ih ((min_le_right _ _).trans (min_le_left _ _)) done

/-- A row goes behind all others with a token that is not in use. -/
theorem labelled_last (le : next ≤ token) (positive : 0 < token) (below : token < limit) :
    list.Labelled order order.length changes changes token limit where
  ascends := ascends.congr (fun _ _ => rfl) (le.trans below.le)
  between := by
    refine ⟨fun row member => ?_, ?_, positive, below⟩
    · exact (ascends.bounds row (mem_of_mem_take member)).2.trans_le le
    · rw [drop_length]
      exact nofun
  relabelled := ⟨[], nil_sublist order, Nat.zero_le _, fun _ _ => rfl⟩

theorem labelled_of_insertion (within : index ≤ order.length)
    (done : list.orderTokenForPreparedInsertion order index changes next =
      .ok (token, after, limit)) : list.Labelled order index changes after token limit := by
  unfold orderTokenForPreparedInsertion at done
  split at done
  · next last =>
      obtain ⟨_, computed, done⟩ := bind_eq_ok_iff.mp done
      obtain ⟨_, checked, same⟩ := bind_eq_ok_iff.mp done
      cases same
      cases checkedToken_eq_ok computed
      cases checkedToken_eq_ok checked
      have stride : 0 < orderTokenStride := Nat.two_pow_pos 64
      exact last ▸ labelled_last ascends (le_max_left _ _) (by omega) (by omega)
  · obtain ⟨_, found, done⟩ := bind_eq_ok_iff.mp done
    rw [okOr_eq_ok_iff, bind_eq_some_iff] at found
    obtain ⟨row, found, staged⟩ := found
    have bounds := ascends.bounds row (mem_of_getElem? found)
    rw [stagedOrderToken_of_pos bounds.1] at staged
    cases staged
    rw [check_bind_eq_ok_iff] at done
    obtain ⟨le, done⟩ := done
    split at done
    · cases done
      refine ⟨ascends, ⟨fun other member => ?_, fun other member => ?_, by omega⟩, [],
        nil_sublist order, Nat.zero_le _, fun _ _ => rfl⟩
      · have := label_le_tokenBefore ascends within member
        omega
      · have := le_label_of_mem_drop ascends found member
        omega
    · obtain ⟨_, ran, same⟩ := bind_eq_ok_iff.mp done
      cases same
      exact labelled_of_relabel ascends ((min_le_left _ _).trans (by decide)) ran

end Draft

/-- A row at the index of its token keeps the tokens ascending. -/
theorem Labelled.insert (labelled : list.Labelled order index changes after token limit)
    (within : index ≤ order.length) (fresh : row ∉ order) :
    Ascends (list.label (after.insert row (some token))) (order.insertIdx index row) limit := by
  have same : ∀ other ∈ order,
      list.label (after.insert row (some token)) other = list.label after other := by
    rintro other member
    rw [label_insert, if_neg (ne_of_mem_of_not_mem member fresh).symm]
  have placed : list.label (after.insert row (some token)) row = token := by
    rw [label_insert, if_pos rfl]
  apply (labelled.ascends.congr same le_rfl).insert within
  rw [placed]
  refine ⟨fun other member => ?_, fun other member => ?_, labelled.between.bounds⟩
  · rw [same other (mem_of_mem_take member)]
    exact labelled.between.front other member
  · rw [same other (mem_of_mem_drop member)]
    exact labelled.between.back other member

end BoonCircuit.Executor.ListState
