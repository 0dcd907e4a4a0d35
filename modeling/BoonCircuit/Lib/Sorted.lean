import BoonCircuit.Lib.Order
import Mathlib.Data.List.Induction

/-!
# Sorted entry lists

The entries of an ordered map, listed in key order.  Insertion is the one of an
ordered map: it keeps a present key and replaces its value.  A key above the
last one is appended, which is how a reader rebuilds a map from its own
iteration order.
-/

namespace BoonCircuit.Lib.Sorted

open Std List

universe u v

variable {κ : Type u} {ν : Type v} (cmp : κ → κ → Ordering)

/-- Keys strictly increase. -/
def Increasing (keys : List κ) : Prop :=
  keys.Pairwise fun left right => cmp left right = .lt

instance (keys : List κ) : Decidable (Increasing cmp keys) :=
  inferInstanceAs (Decidable (List.Pairwise _ _))

/-- Ordered-map insertion. -/
def insertEntry (key : κ) (value : ν) : List (κ × ν) → List (κ × ν)
  | [] => [(key, value)]
  | (present, old) :: rest =>
    match cmp key present with
    | .lt => (key, value) :: (present, old) :: rest
    | .eq => (present, value) :: rest
    | .gt => (present, old) :: insertEntry key value rest

/-- Ordered-set insertion. -/
def insertItem (item : κ) : List κ → List κ
  | [] => [item]
  | present :: rest =>
    match cmp item present with
    | .lt => item :: present :: rest
    | .eq => present :: rest
    | .gt => present :: insertItem item rest

variable {cmp}

variable {key item : κ} {entries : List (κ × ν)} {items keys : List κ} {value : ν}

theorem insertEntry_eq_append (above : ∀ entry ∈ entries, cmp key entry.1 = .gt) :
    insertEntry cmp key value entries = entries ++ [(key, value)] := by
  induction entries with
  | nil => rfl
  | cons entry entries ih =>
    have headAbove := above entry mem_cons_self
    have restAbove : ∀ entry ∈ entries, cmp key entry.1 = .gt :=
      fun other otherMem => above other (mem_cons_of_mem entry otherMem)
    rw [insertEntry, headAbove, ih restAbove]
    rfl

theorem insertItem_eq_append (above : ∀ present ∈ items, cmp item present = .gt) :
    insertItem cmp item items = items ++ [item] := by
  induction items with
  | nil => rfl
  | cons present items ih =>
    have headAbove := above present mem_cons_self
    have restAbove : ∀ present ∈ items, cmp item present = .gt :=
      fun other otherMem => above other (mem_cons_of_mem present otherMem)
    rw [insertItem, headAbove, ih restAbove]
    rfl

theorem lt_of_getLast_lt [TransCmp cmp] (sorted : Increasing cmp keys)
    (lastLt : ∀ last ∈ keys.getLast?, cmp last key = .lt) :
    ∀ present ∈ keys, cmp present key = .lt := by
  induction keys using List.reverseRecOn with
  | nil => simp
  | append_singleton keys last =>
    have belowKey : cmp last key = .lt := lastLt last (by simp)
    intro present presentMem
    rcases mem_append.mp presentMem with early | final
    · have belowLast : cmp present last = .lt :=
        (pairwise_append.mp sorted).2.2 present early last (by simp)
      exact TransCmp.lt_trans belowLast belowKey
    · rw [mem_singleton.mp final]
      exact belowKey

theorem increasing_append_singleton [TransCmp cmp] :
    Increasing cmp (keys ++ [key]) ↔
      Increasing cmp keys ∧ ∀ last ∈ keys.getLast?, cmp last key = .lt := by
  constructor
  · intro sorted
    obtain ⟨sortedKeys, _, belowKey⟩ := pairwise_append.mp sorted
    refine ⟨sortedKeys, ?_⟩
    intro last isLast
    exact belowKey last (mem_of_getLast? isLast) key (by simp)
  · rintro ⟨sorted, lastLt⟩
    apply pairwise_append.mpr
    refine ⟨sorted, pairwise_singleton _ _, ?_⟩
    intro present presentMem other otherMem
    rw [mem_singleton.mp otherMem]
    exact lt_of_getLast_lt sorted lastLt present presentMem

private theorem any_isGE_eq_false_iff {last : Option κ} :
    (last.any fun previous => (cmp previous key).isGE) = false ↔
      ∀ previous ∈ last, cmp previous key = .lt := by
  cases last with
  | none => simp
  | some previous => cases order : cmp previous key <;> simp [order]

/-- The test against the last key admits exactly the keys that keep the entries sorted. -/
theorem lastEntry_below_iff [TransCmp cmp]
    (sorted : Increasing cmp (entries.map Prod.fst)) (key : κ) (value : ν) :
    (entries.getLast?.any fun previous => (cmp previous.1 key).isGE) = false ↔
      Increasing cmp ((entries ++ [(key, value)]).map Prod.fst) := by
  have moved : (entries.getLast?.any fun previous => (cmp previous.1 key).isGE) =
      ((entries.map Prod.fst).getLast?.any fun previous => (cmp previous key).isGE) := by
    rw [getLast?_map]
    cases entries.getLast? <;> rfl
  rw [moved, any_isGE_eq_false_iff, map_append, map_singleton, increasing_append_singleton]
  exact ⟨fun below => ⟨sorted, below⟩, fun grown => grown.2⟩

theorem lastItem_below_iff [TransCmp cmp] (sorted : Increasing cmp items) :
    (items.getLast?.any fun previous => (cmp previous item).isGE) = false ↔
      Increasing cmp (items ++ [item]) := by
  rw [any_isGE_eq_false_iff, increasing_append_singleton]
  exact ⟨fun below => ⟨sorted, below⟩, fun grown => grown.2⟩

theorem insertEntry_of_increasing [OrientedCmp cmp]
    (grown : Increasing cmp ((entries ++ [(key, value)]).map Prod.fst)) :
    insertEntry cmp key value entries = entries ++ [(key, value)] := by
  apply insertEntry_eq_append
  intro entry entryMem
  rw [map_append] at grown
  have below := (pairwise_append.mp grown).2.2 entry.1 (mem_map_of_mem entryMem) key (by simp)
  exact OrientedCmp.gt_of_lt below

theorem insertItem_of_increasing [OrientedCmp cmp]
    (grown : Increasing cmp (items ++ [item])) : insertItem cmp item items = items ++ [item] := by
  apply insertItem_eq_append
  intro present presentMem
  exact OrientedCmp.gt_of_lt ((pairwise_append.mp grown).2.2 present presentMem item (by simp))

theorem Increasing.of_append {more : List κ} (sorted : Increasing cmp (keys ++ more)) :
    Increasing cmp keys :=
  (pairwise_append.mp sorted).1

end BoonCircuit.Lib.Sorted
