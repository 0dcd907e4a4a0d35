import BoonCircuit.Lib.BTree
import BoonCircuit.Lib.Checks

/-!
# Counting loops

Nested loops that visit keys, check each visit, and count the visits of every
key in an ordered map of machine words.  `Counts` is the law of such a loop: it
succeeds exactly when every visit passes its check and no counter overflows, and
then the counters are the plain tally of the visited keys.  The law is closed
under iteration, so a nest of loops has it as soon as its innermost step does.
-/

namespace BoonCircuit.Lib.Tally

open Checks List

variable {κ ε α β : Type} [Ord κ] [Std.TransOrd κ]

/-- Counters by key. -/
abbrev Counters (κ : Type) [Ord κ] : Type :=
  BTreeMap κ UInt64

/-- The counter of a key; absent keys count zero. -/
def Counters.at (counters : Counters κ) (key : κ) : UInt64 :=
  counters[key]?.getD 0

variable (counters : Counters κ)

/-- Counts one more visit without looking at the bound. -/
def bump (key : κ) : Counters κ :=
  counters.insert key (counters.at key + 1)

/-- Counts every visit of a list. -/
def tally (visits : List κ) : Counters κ :=
  visits.foldl bump counters

/-- Counts one more visit, unless the counter is full. -/
def visit (overflow : ε) (counters : Counters κ) (key : κ) : Except ε (Counters κ) := do
  reject ((counters.at key).toNat + 1 = 2 ^ 64) overflow
  pure (bump counters key)

@[simp]
theorem tally_nil : tally counters [] = counters :=
  rfl

theorem tally_append (first second : List κ) :
    tally counters (first ++ second) = tally (tally counters first) second :=
  foldl_append

variable [DecidableEq κ]

/-- No counter passes the largest word while the visits are counted. -/
def Fits (visits : List κ) : Prop :=
  ∀ key, (counters.at key).toNat + visits.count key < 2 ^ 64

/-- A loop step that checks an item and counts the visits it makes. -/
def Counts (step : Counters κ → α → Except ε (Counters κ)) (Good : α → Prop)
    (visits : α → List κ) : Prop :=
  ∀ counters item final, step counters item = .ok final ↔
    Good item ∧ Fits counters (visits item) ∧ final = tally counters (visits item)

theorem counts_visit (overflow : ε) (check : κ → Except ε Unit) :
    Counts (fun counters key => check key >>= fun _ => visit overflow counters key)
      (fun key => check key = .ok ()) fun key => [key] := by
  intro counters key final
  rw [check_bind_eq_ok_iff, visit, check_bind_eq_ok_iff, reject_eq_ok_iff,
    pure_eq_ok_iff, eq_comm (a := bump counters key)]
  have room : ¬ (counters.at key).toNat + 1 = 2 ^ 64 ↔ Fits counters [key] := by
    constructor
    · intro notFull other
      have bound := (counters.at other).toNat_lt
      by_cases same : key = other
      · subst same
        rw [count_singleton_self]
        omega
      · rw [count_singleton]
        simp [same]
        omega
    · intro fits
      have bound := fits key
      rw [count_singleton_self] at bound
      omega
  rw [room]
  rfl

omit [Ord κ] [Std.TransOrd κ] in
private theorem count_cons (first key : κ) (visits : List κ) :
    (first :: visits).count key = [first].count key + visits.count key := by
  rw [← count_append, singleton_append]

variable [Std.LawfulEqOrd κ] {counters : Counters κ} {visits : α → List κ}

theorem at_bump (counters : Counters κ) (key other : κ) :
    (bump counters key).at other =
      if key = other then counters.at key + 1 else counters.at other := by
  unfold bump Counters.at
  rw [BTreeMap.getElem?_insert]
  split <;> rfl

/-- As long as the counters fit, a tally adds the numbers of visits. -/
theorem toNat_at_tally {visits : List κ} (fits : Fits counters visits) (key : κ) :
    ((tally counters visits).at key).toNat = (counters.at key).toNat + visits.count key := by
  induction visits generalizing counters with
  | nil => simp
  | cons first visits ih =>
    have bumped : ∀ other, ((bump counters first).at other).toNat =
        (counters.at other).toNat + [first].count other := by
      intro other
      have room := fits first
      rw [at_bump]
      rw [count_cons_self] at room
      by_cases same : first = other
      · subst same
        have noWrap : (counters.at first).toNat + (1 : UInt64).toNat < 2 ^ 64 := by
          rw [UInt64.toNat_one]
          omega
        rw [if_pos rfl, UInt64.toNat_add, Nat.mod_eq_of_lt noWrap, count_singleton_self,
          UInt64.toNat_one]
      · simp [same]
    have later : Fits (bump counters first) visits := by
      intro other
      have room := fits other
      rw [bumped]
      rw [count_cons] at room
      omega
    change ((tally (bump counters first) visits).at key).toNat = _
    rw [ih later, bumped, count_cons first key visits, Nat.add_assoc]

theorem fits_append {first second : List κ} :
    Fits counters (first ++ second) ↔ Fits counters first ∧ Fits (tally counters first) second := by
  constructor
  · intro fits
    have firstFits : Fits counters first := by
      intro key
      have room := fits key
      rw [count_append] at room
      omega
    refine ⟨firstFits, fun key => ?_⟩
    have room := fits key
    rw [count_append] at room
    rw [toNat_at_tally firstFits]
    omega
  · rintro ⟨firstFits, secondFits⟩ key
    have room := secondFits key
    rw [toNat_at_tally firstFits] at room
    rw [count_append]
    omega

/-- Iterating a counting step counts the visits of all items. -/
theorem Counts.foldlM {step : Counters κ → α → Except ε (Counters κ)} {Good : α → Prop}
    (counts : Counts step Good visits) :
    Counts (fun counters items => List.foldlM step counters items)
      (fun items => ∀ item ∈ items, Good item) fun items => items.flatMap visits := by
  intro counters items
  induction items generalizing counters with
  | nil =>
    intro final
    have fits : Fits counters [] := fun key => by
      simpa using (counters.at key).toNat_lt
    simp [fits, pure, Except.pure, eq_comm]
  | cons item items ih =>
    intro final
    simp only [foldlM_cons, bind_eq_ok_iff, ih, flatMap_cons, fits_append,
      tally_append, forall_mem_cons]
    constructor
    · rintro ⟨_, stepped, good, fits, finished⟩
      rcases (counts _ _ _).mp stepped with ⟨itemGood, itemFits, rfl⟩
      exact ⟨⟨itemGood, good⟩, ⟨itemFits, fits⟩, finished⟩
    · rintro ⟨⟨itemGood, good⟩, ⟨itemFits, fits⟩, finished⟩
      exact ⟨_, (counts _ _ _).mpr ⟨itemGood, itemFits, rfl⟩, good, fits, finished⟩

omit [Ord κ] [Std.TransOrd κ] [Std.LawfulEqOrd κ] in
/-- Leaving out items that make no visit of a key keeps its count. -/
theorem count_flatMap_filter {items : List α} {keep : α → Bool} {key : κ}
    (unvisited : ∀ item ∈ items, keep item = false → key ∉ visits item) :
    ((items.filter keep).flatMap visits).count key = (items.flatMap visits).count key := by
  induction items with
  | nil => rfl
  | cons item items ih =>
    have rest := ih fun other member => unvisited other (mem_cons_of_mem _ member)
    cases kept : keep item with
    | true =>
      rw [filter_cons_of_pos kept, flatMap_cons, flatMap_cons, count_append, count_append, rest]
    | false =>
      have none := count_eq_zero.mpr (unvisited item mem_cons_self kept)
      rw [filter_cons_of_neg (by simp [kept]), flatMap_cons, count_append, none,
        rest, Nat.zero_add]

end BoonCircuit.Lib.Tally
