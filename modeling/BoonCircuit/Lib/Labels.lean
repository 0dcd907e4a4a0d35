import Mathlib.Data.List.Basic
import Mathlib.Tactic.Linarith

/-!
# Ascending labels

Items of a list carry labels that ascend along it, like line numbers.  An item is
put between two others with a label between theirs; when there is none, the labels
of a window are spread evenly over the room around it.
-/

namespace BoonCircuit.Lib.Labels

open List

variable {α : Type} {label relabel : α → Nat} {items fewer : List α} {item : α}
  {limit start stop index lower upper step token : Nat}

/-- The labels ascend along the items, from above zero to below the limit. -/
structure Ascends (label : α → Nat) (items : List α) (limit : Nat) : Prop where
  sorted : items.Pairwise (label · < label ·)
  bounds : ∀ item ∈ items, 0 < label item ∧ label item < limit

/-- A label for an item between the ones before an index and the others. -/
structure Between (label : α → Nat) (items : List α) (index token limit : Nat) : Prop where
  front : ∀ item ∈ items.take index, label item < token
  back : ∀ item ∈ items.drop index, token < label item
  bounds : 0 < token ∧ token < limit

theorem insertIdx_eq_take_drop (within : index ≤ items.length) :
    items.insertIdx index item = items.take index ++ item :: items.drop index := by
  induction items generalizing index with
  | nil =>
    cases Nat.le_zero.mp within
    rfl
  | cons first items ih =>
    cases index with
    | zero => rfl
    | succ => simp [ih (Nat.le_of_succ_le_succ within)]

namespace Ascends

theorem nodup (ascends : Ascends label items limit) : items.Nodup :=
  ascends.sorted.imp fun less same => (same ▸ less).ne rfl

theorem sublist (ascends : Ascends label items limit) (sub : fewer <+ items) :
    Ascends label fewer limit :=
  ⟨ascends.sorted.sublist sub, fun item member => ascends.bounds item (sub.subset member)⟩

theorem congr (ascends : Ascends label items limit)
    (same : ∀ item ∈ items, relabel item = label item) (le : limit ≤ upper) :
    Ascends relabel items upper where
  sorted := ascends.sorted.imp_of_mem fun {left right} inLeft inRight less => by
    rwa [same left inLeft, same right inRight]
  bounds item member := by
    rw [same item member]
    exact (ascends.bounds item member).imp_right (·.trans_le le)

theorem insert (ascends : Ascends label items limit) (within : index ≤ items.length)
    (between : Between label items index (label item) limit) :
    Ascends label (items.insertIdx index item) limit := by
  rw [insertIdx_eq_take_drop within]
  obtain ⟨sorted, bounds⟩ := ascends
  rw [← take_append_drop index items, pairwise_append] at sorted
  rw [← take_append_drop index items, forall_mem_append] at bounds
  obtain ⟨inFront, inBack, across⟩ := sorted
  constructor
  · refine pairwise_append.mpr ⟨inFront, pairwise_cons.mpr ⟨between.back, inBack⟩, ?_⟩
    exact fun left member => forall_mem_cons.mpr ⟨between.front left member, across left member⟩
  · exact forall_mem_append.mpr ⟨bounds.1, forall_mem_cons.mpr ⟨between.bounds, bounds.2⟩⟩

/-- Items around a window keep their labels, and the room between them is divided evenly among
the window and one more item. -/
theorem spread (ascends : Ascends label items limit)
    (reaches : start ≤ index) (within : index ≤ stop)
    (low : ∀ item ∈ items.take start, label item ≤ lower ∧ relabel item = label item)
    (high : ∀ item ∈ items.drop stop, upper ≤ label item ∧ relabel item = label item)
    (inside : ∀ entry ∈ ((items.drop start).take (stop - start)).zipIdx, relabel entry.1 =
      lower + step * (if start + entry.2 < index then entry.2 + 1 else entry.2 + 2))
    (room : lower + step * (stop - start + 2) ≤ upper) (spaced : 0 < step) (le : upper ≤ limit) :
    Ascends relabel items limit ∧
      Between relabel items index (lower + step * (index - start + 1)) limit := by
  have rise : ∀ {m n}, m < n → lower + step * m < lower + step * n := fun less =>
    Nat.add_lt_add_left (Nat.mul_lt_mul_of_pos_left less spaced) lower
  have above : ∀ {n}, 0 < n → lower < lower + step * n := fun positive =>
    Nat.lt_add_of_pos_right (Nat.mul_pos spaced positive)
  have beneath : ∀ {n}, n < stop - start + 2 → lower + step * n < upper := fun less =>
    (rise less).trans_le room
  have place : ∀ i (h : i < items.length), (relabel items[i] = label items[i] ∧
        (i < start ∧ label items[i] ≤ lower ∨ stop ≤ i ∧ upper ≤ label items[i])) ∨
      start ≤ i ∧ i < stop ∧ relabel items[i] =
        lower + step * (if i < index then i - start + 1 else i - start + 2) := by
    intro i h
    rcases lt_or_ge i start with before | after
    · obtain ⟨le, same⟩ := low items[i] (mem_take_iff_getElem.mpr ⟨i, by omega, rfl⟩)
      exact .inl ⟨same, .inl ⟨before, le⟩⟩
    rcases lt_or_ge i stop with inner | behind
    · have entry := inside (items[i], i - start) (by
        rw [mem_zipIdx_iff_getElem?, getElem?_take, if_pos (by omega), getElem?_drop,
          Nat.add_sub_cancel' after, getElem?_eq_getElem h])
      rw [Nat.add_sub_cancel' after] at entry
      exact .inr ⟨after, inner, entry⟩
    · obtain ⟨le, same⟩ := high items[i]
        (mem_drop_iff_getElem.mpr ⟨i - stop, by omega, by simp [Nat.add_sub_cancel' behind]⟩)
      exact .inl ⟨same, .inr ⟨behind, le⟩⟩
  refine ⟨⟨pairwise_iff_getElem.mpr fun i j hi hj less => ?_, fun item member => ?_⟩,
    fun item member => ?_, fun item member => ?_, ?_, ?_⟩
  · have old := pairwise_iff_getElem.mp ascends.sorted i j hi hj less
    rcases place i hi with ⟨same, left⟩ | ⟨_, _, left⟩ <;>
      rcases place j hj with ⟨again, right⟩ | ⟨_, _, right⟩
    · rwa [same, again]
    · rw [same, right]
      exact (left.resolve_right (by omega)).2.trans_lt (above (by split_ifs <;> omega))
    · rw [left, again]
      exact (beneath (by split_ifs <;> omega)).trans_le (right.resolve_left (by omega)).2
    · rw [left, right]
      exact rise (by split_ifs <;> omega)
  · obtain ⟨i, hi, rfl⟩ := getElem_of_mem member
    rcases place i hi with ⟨same, _⟩ | ⟨_, _, same⟩ <;> rw [same]
    · exact ascends.bounds _ member
    · exact ⟨(Nat.zero_le lower).trans_lt (above (by split_ifs <;> omega)),
        (beneath (by split_ifs <;> omega)).trans_le le⟩
  · obtain ⟨i, hi, rfl⟩ := mem_take_iff_getElem.mp member
    rcases place i (by omega) with ⟨same, side⟩ | ⟨_, _, same⟩ <;> rw [same]
    · exact (side.resolve_right (by omega)).2.trans_lt (above (by omega))
    · exact rise (by split_ifs <;> omega)
  · obtain ⟨i, hi, rfl⟩ := mem_drop_iff_getElem.mp member
    rcases place (index + i) (by omega) with ⟨same, side⟩ | ⟨_, _, same⟩ <;> rw [same]
    · exact (beneath (by omega)).trans_le (side.resolve_left (by omega)).2
    · exact rise (by split_ifs <;> omega)
  · exact (Nat.zero_le lower).trans_lt (above (by omega))
  · exact (beneath (by omega)).trans_le le

end Ascends

end BoonCircuit.Lib.Labels
