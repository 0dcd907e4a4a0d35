import Mathlib.Tactic.Linarith

/-!
# Ordered maps and sets

The ordered maps and sets of the source are the extensional tree maps of the
standard library at the key's own order.
-/

namespace BoonCircuit.Lib

open Std ExtTreeMap

/-- An ordered map. -/
abbrev BTreeMap (κ ν : Type) [Ord κ] : Type :=
  ExtTreeMap κ ν compare

/-- An ordered set. -/
abbrev BTreeSet (κ : Type) [Ord κ] : Type :=
  ExtTreeSet κ compare

namespace BTreeMap

variable {κ ν : Type} [Ord κ] [TransOrd κ]

variable {map : BTreeMap κ ν} {key other : κ} {value : ν}

theorem mem_iff_exists : key ∈ map ↔ ∃ value, map[key]? = some value := by
  rw [mem_iff_isSome_getElem?, Option.isSome_iff_exists]

variable [LawfulEqOrd κ] {change : ν → ν}

theorem mem_toList_iff {entry : κ × ν} : entry ∈ map.toList ↔ map[entry.1]? = some entry.2 :=
  mem_toList_iff_getElem?_eq_some

theorem mem_toList (found : map[key]? = some value) : (key, value) ∈ map.toList :=
  mem_toList_iff.mpr found

/-- A loop over the entries visits exactly the bindings. -/
theorem forall_mem_toList {Property : κ × ν → Prop} :
    (∀ entry ∈ map.toList, Property entry) ↔
      ∀ key value, map[key]? = some value → Property (key, value) := by
  constructor
  · intro every key value found
    exact every (key, value) (mem_toList_iff.mpr found)
  · intro every entry member
    exact every entry.1 entry.2 (mem_toList_iff.mp member)

theorem getElem?_insert [DecidableEq κ] :
    (map.insert key value)[other]? = if key = other then some value else map[other]? := by
  simp [ExtTreeMap.getElem?_insert]

theorem getElem?_erase [DecidableEq κ] :
    (map.erase key)[other]? = if key = other then none else map[other]? := by
  simp [ExtTreeMap.getElem?_erase]

theorem getElem?_insert_eq_some_iff [DecidableEq κ] {found : ν} :
    (map.insert key value)[other]? = some found ↔
      key = other ∧ value = found ∨ key ≠ other ∧ map[other]? = some found := by
  rw [getElem?_insert]
  split <;> simp_all

theorem getElem?_erase_eq_some_iff [DecidableEq κ] :
    (map.erase key)[other]? = some value ↔ key ≠ other ∧ map[other]? = some value := by
  rw [getElem?_erase]
  split <;> simp_all

theorem insert_insert {first second : ν} [DecidableEq κ] :
    (map.insert key first).insert key second = map.insert key second := by
  apply ext_getElem?
  intro other
  simp only [getElem?_insert]
  split <;> rfl

theorem mem_insert : other ∈ map.insert key value ↔ other = key ∨ other ∈ map := by
  rw [ExtTreeMap.mem_insert, LawfulEqOrd.compare_eq_iff_eq, eq_comm]

theorem mem_erase : other ∈ map.erase key ↔ other ≠ key ∧ other ∈ map := by
  rw [ExtTreeMap.mem_erase, ne_eq, LawfulEqOrd.compare_eq_iff_eq, eq_comm]

theorem getElem?_modify [DecidableEq κ] :
    (map.modify key change)[other]? =
      if key = other then map[other]?.map change else map[other]? := by
  rw [ExtTreeMap.getElem?_modify]
  by_cases same : key = other
  · simp [same]
  · simp [same]

theorem modify_eq_insert [DecidableEq κ]
    (found : map[key]? = some value) : map.modify key change = map.insert key (change value) := by
  apply ext_getElem?
  intro other
  rw [getElem?_modify, getElem?_insert]
  split
  · next same => rw [← same, found, Option.map_some]
  · rfl

theorem getElem?_filter (keep : κ → Bool) :
    (map.filter fun key _ => keep key)[key]? = if keep key then map[key]? else none := by
  rw [getElem?_filter']
  cases map[key]? <;> cases keep key <;> simp

theorem getElem?_filter_eq_some_iff (keep : κ → Bool) :
    (map.filter fun key _ => keep key)[key]? = some value ↔
      keep key = true ∧ map[key]? = some value := by
  rw [getElem?_filter]
  cases keep key <;> simp

@[simp]
theorem filter_true : (map.filter fun _ _ => true) = map := by
  apply ext_getElem?
  intro key
  exact getElem?_filter fun _ => true

theorem mem_filter (keep : κ → Bool) :
    key ∈ (map.filter fun key _ => keep key) ↔ keep key = true ∧ key ∈ map := by
  rw [mem_iff_exists, mem_iff_exists, getElem?_filter]
  cases keep key <;> simp

omit [LawfulEqOrd κ] in
theorem nodup_toList : map.toList.Nodup := by
  apply List.Pairwise.imp _ map.distinct_keys_toList
  rintro _ _ apart rfl
  exact apart ReflOrd.compare_self

end BTreeMap

namespace BTreeSet

variable {κ : Type} [Ord κ] [TransOrd κ] [LawfulEqOrd κ]

variable {set : BTreeSet κ} {member : κ}

theorem mem_insert {other : κ} : other ∈ set.insert member ↔ other = member ∨ other ∈ set := by
  rw [ExtTreeSet.mem_insert, LawfulEqOrd.compare_eq_iff_eq, eq_comm]

theorem mem_filter {keep : κ → Bool} :
    member ∈ set.filter keep ↔ member ∈ set ∧ keep member = true := by
  rw [ExtTreeSet.mem_filter]
  constructor
  · rintro ⟨present, kept⟩
    exact ⟨present, by simpa using kept⟩
  · rintro ⟨present, kept⟩
    exact ⟨present, by simpa using kept⟩

theorem mem_foldl_insert {items : List κ} {item : κ} :
    ∀ {set : BTreeSet κ}, item ∈ items.foldl (·.insert ·) set ↔ item ∈ set ∨ item ∈ items := by
  induction items with
  | nil => simp
  | cons first items ih =>
    intro set
    rw [List.foldl_cons, ih, ExtTreeSet.mem_insert, LawfulEqOrd.compare_eq_iff_eq,
      List.mem_cons, or_assoc, or_left_comm, eq_comm]

omit [LawfulEqOrd κ] in
theorem nodup_toList : set.toList.Nodup := by
  apply List.Pairwise.imp _ set.distinct_toList
  rintro _ _ apart rfl
  exact apart ReflOrd.compare_self

end BTreeSet

end BoonCircuit.Lib
