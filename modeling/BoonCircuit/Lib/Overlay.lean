import BoonCircuit.Lib.BTree

/-!
# Differences and overlays of ordered maps

The bindings that a target map changes, written over a base map one after the
other, give the overlay of the target over the base.  A map that splits into two
maps with different keys has the bindings of both.
-/

namespace BoonCircuit.Lib.BTreeMap

open Std List Option ExtTreeMap

variable {κ ν : Type} [Ord κ] [TransOrd κ] [LawfulEqOrd κ]

/-- The bindings of the target that the base does not have. -/
def changed [DecidableEq ν] (base target : BTreeMap κ ν) : List (κ × ν) :=
  target.toList.filter fun entry => decide (base[entry.1]? ≠ some entry.2)

/-- Writes bindings one after the other. -/
def writeAll (base : BTreeMap κ ν) (entries : List (κ × ν)) : BTreeMap κ ν :=
  entries.foldl (fun map entry => map.insert entry.1 entry.2) base

variable {base target : BTreeMap κ ν} {key : κ} {value : ν}

theorem mem_changed_iff [DecidableEq ν] {entry : κ × ν} :
    entry ∈ changed base target ↔
      target[entry.1]? = some entry.2 ∧ base[entry.1]? ≠ some entry.2 := by
  rw [changed, List.mem_filter, mem_toList_iff, decide_eq_true_eq]

theorem mem_changed_of_not_mem [DecidableEq ν] (found : target[key]? = some value)
    (unbound : key ∉ base) : (key, value) ∈ changed base target :=
  mem_changed_iff.mpr ⟨found, fun bound => unbound (mem_iff_exists.mpr ⟨value, bound⟩)⟩

/-- Bindings that agree with one lookup function can be written in any order. -/
theorem getElem?_writeAll [DecidableEq κ] (lookup : κ → Option ν) {entries : List (κ × ν)}
    (taken : ∀ entry ∈ entries, lookup entry.1 = some entry.2) :
    ∀ base : BTreeMap κ ν, (writeAll base entries)[key]? =
      if key ∈ entries.map Prod.fst then lookup key else base[key]? := by
  induction entries with
  | nil =>
    intro base
    simp [writeAll]
  | cons entry entries ih =>
    intro base
    have rest := ih (fun other member => taken other (mem_cons_of_mem _ member))
      (base.insert entry.1 entry.2)
    have first := taken entry mem_cons_self
    rw [writeAll, foldl_cons]
    rw [writeAll] at rest
    rw [rest, getElem?_insert]
    by_cases later : key ∈ entries.map Prod.fst
    · simp [later]
    · by_cases same : entry.1 = key
      · subst same
        simp [first]
      · simp [later, same, Ne.symm same]

/-- Bindings that are all those of a lookup function go before those of the base. -/
theorem getElem?_writeAll_of_mem_iff [DecidableEq κ] (lookup : κ → Option ν)
    {entries : List (κ × ν)} (listed : ∀ entry, entry ∈ entries ↔ lookup entry.1 = some entry.2) :
    (writeAll base entries)[key]? = (lookup key).or base[key]? := by
  rw [getElem?_writeAll lookup fun entry => (listed entry).mp]
  cases found : lookup key with
  | none => simp [listed, found]
  | some value => simp [listed, found]

/-- Writing the changed bindings lays the target over the base. -/
theorem getElem?_writeAll_changed [DecidableEq κ] [DecidableEq ν] :
    (writeAll base (changed base target))[key]? = target[key]?.or base[key]? := by
  rw [getElem?_writeAll (fun key => target[key]?) fun entry member => (mem_changed_iff.mp member).1]
  split
  case isTrue member =>
    rcases mem_map.mp member with ⟨entry, written, rfl⟩
    rw [(mem_changed_iff.mp written).1, some_or]
  case isFalse unchanged =>
    cases found : target[key]? with
    | none => rfl
    | some value =>
      by_contra different
      apply unchanged
      exact mem_map.mpr ⟨(key, value), mem_changed_iff.mpr ⟨found, different⟩, rfl⟩

theorem mem_writeAll_changed [DecidableEq κ] [DecidableEq ν] : key ∈ writeAll base
    (changed base target) ↔ key ∈ target ∨ key ∈ base := by
  rw [mem_iff_isSome_getElem?, mem_iff_isSome_getElem?,
    mem_iff_isSome_getElem?, getElem?_writeAll_changed, isSome_or,
    Bool.or_eq_true]

/-- When the keys of the base that the target lacks are known, an overlay has the bindings of
the target and the base bindings of these keys. -/
theorem getElem?_writeAll_eq_some_iff [DecidableEq κ] [DecidableEq ν] (Lost : κ → Prop)
    (disjoint : ∀ key ∈ target, ¬ Lost key) (covered : ∀ key ∈ base, ¬ Lost key → key ∈ target) :
    (writeAll base (changed base target))[key]? = some value ↔
      target[key]? = some value ∨ Lost key ∧ base[key]? = some value := by
  rw [getElem?_writeAll_changed, or_eq_some_iff]
  apply or_congr_right
  apply and_congr_left
  intro inBase
  have bound := mem_iff_exists.mpr ⟨value, inBase⟩
  have absent_iff : target[key]? = none ↔ key ∉ target := by
    rw [mem_iff_exists]
    cases target[key]? <;> simp
  rw [absent_iff]
  exact ⟨fun absent => by_contra fun kept => absent (covered key bound kept),
    fun lost present => disjoint key present lost⟩

/-- Dropping keys from an overlay leaves the target when no other key of the base is kept. -/
theorem filter_writeAll_eq_iff [DecidableEq κ] [DecidableEq ν]
    (keep : κ → Bool) (kept : ∀ key ∈ target, keep key = true) :
    ((writeAll base (changed base target)).filter fun key _ => keep key) = target ↔
      ∀ key ∈ base, keep key = true → key ∈ target := by
  constructor
  · intro equal key inBase keepKey
    rw [← equal]
    exact (mem_filter keep).mpr ⟨keepKey, mem_writeAll_changed.mpr (.inr inBase)⟩
  · intro dropped
    apply ExtTreeMap.ext_getElem?
    intro key
    rw [getElem?_filter keep, getElem?_writeAll_changed]
    cases found : target[key]? with
    | some value => rw [if_pos (kept key (mem_iff_exists.mpr ⟨value, found⟩)), some_or]
    | none =>
      have absent : key ∉ target := by
        rw [mem_iff_exists, found]
        simp
      split
      case isTrue keepKey =>
        by_contra bound
        rcases ne_none_iff_exists'.mp bound with ⟨value, inBase⟩
        exact absent (dropped key (mem_iff_exists.mpr ⟨value, inBase⟩) keepKey)
      case isFalse => rfl

/-- A map that splits into two maps without common keys has the bindings of both. -/
theorem toList_perm_append {whole left right : BTreeMap κ ν}
    (lookup : ∀ (key : κ) (value : ν), whole[key]? = some value ↔
      left[key]? = some value ∨ right[key]? = some value)
    (disjoint : ∀ key : κ, key ∈ left → key ∉ right) :
    whole.toList.Perm (left.toList ++ right.toList) := by
  apply (perm_ext_iff_of_nodup nodup_toList _).mpr
  · intro entry
    rw [mem_append, mem_toList_iff, mem_toList_iff, mem_toList_iff, lookup]
  · rw [nodup_append]
    refine ⟨nodup_toList, nodup_toList, ?_⟩
    rintro entry inLeft _ inRight rfl
    exact disjoint entry.1 (mem_iff_exists.mpr ⟨_, mem_toList_iff.mp inLeft⟩)
      (mem_iff_exists.mpr ⟨_, mem_toList_iff.mp inRight⟩)

end BoonCircuit.Lib.BTreeMap
