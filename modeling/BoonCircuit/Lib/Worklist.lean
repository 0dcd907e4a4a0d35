import Mathlib.Algebra.BigOperators.Group.Finset.Basic
import BoonCircuit.Lib.BTree

/-!
# Worklist traversals

A queue of pending nodes and a set of seen nodes.  When the queue is empty, the
seen nodes are exactly those that the start nodes reach.
-/

namespace BoonCircuit.Lib.Worklist

open Std.ExtTreeSet Std List

variable {κ : Type} [Ord κ] [TransOrd κ]

/-- Visits pending nodes in order until none is left or the fuel runs out. -/
def explore (successors : κ → List κ) : Nat → List κ → BTreeSet κ → Option (BTreeSet κ)
  | _, [], seen => some seen
  | 0, _ :: _, _ => none
  | fuel + 1, node :: pending, seen =>
    if seen.contains node then explore successors fuel pending seen
    else explore successors fuel (pending ++ successors node) (seen.insert node)

variable {successors : κ → List κ}

/-- A node reaches another through successors. -/
abbrev Reaches (successors : κ → List κ) : κ → κ → Prop :=
  Relation.ReflTransGen fun source target => target ∈ successors source

/-- Every successor of a seen node is seen or pending. -/
def Covered (successors : κ → List κ) (pending : List κ) (seen : BTreeSet κ) : Prop :=
  ∀ node ∈ seen, ∀ target ∈ successors node, target ∈ seen ∨ target ∈ pending

variable {fuel : Nat} {pending : List κ} {seen final : BTreeSet κ} {node other : κ}

theorem met_skip (visited : node ∈ seen) (met : other ∈ seen ∨ other ∈ node :: pending) :
    other ∈ seen ∨ other ∈ pending := by
  rcases met with old | queued
  · exact .inl old
  · rcases mem_cons.mp queued with rfl | queued
    · exact .inl visited
    · exact .inr queued

section Correctness

variable [LawfulEqOrd κ]

theorem met_visit (met : other ∈ seen ∨ other ∈ node :: pending) :
    other ∈ seen.insert node ∨ other ∈ pending ++ successors node := by
  rw [BTreeSet.mem_insert, mem_append]
  rcases met with old | queued
  · exact .inl (.inr old)
  · rcases mem_cons.mp queued with rfl | queued
    · exact .inl (.inl rfl)
    · exact .inr (.inl queued)

theorem Covered.visit (covered : Covered successors (node :: pending) seen) :
    Covered successors (pending ++ successors node) (seen.insert node) := by
  intro source member target next
  rcases BTreeSet.mem_insert.mp member with rfl | member
  · exact .inr (mem_append_right pending next)
  · exact met_visit (covered source member target next)

theorem explore_covers (covered : Covered successors pending seen)
    (finished : explore successors fuel pending seen = some final) :
    (∀ node, node ∈ seen ∨ node ∈ pending → node ∈ final) ∧
      ∀ node ∈ final, ∀ target ∈ successors node, target ∈ final := by
  fun_induction explore successors fuel pending seen with
  | case1 =>
    cases finished
    simpa [Covered] using covered
  | case2 => cases finished
  | case3 fuel node pending seen visited ih =>
    have rest : Covered successors pending seen := fun source member target next =>
      met_skip visited (covered source member target next)
    rcases ih rest finished with ⟨included, closed⟩
    exact ⟨fun other met => included other (met_skip visited met), closed⟩
  | case4 fuel node pending seen fresh ih =>
    rcases ih covered.visit finished with ⟨included, closed⟩
    exact ⟨fun other met => included other (met_visit met), closed⟩

theorem explore_reached (finished : explore successors fuel pending seen = some final) :
    ∀ node ∈ final, node ∈ seen ∨ ∃ start ∈ pending, Reaches successors start node := by
  intro node member
  fun_induction explore successors fuel pending seen with
  | case1 =>
    cases finished
    exact .inl member
  | case2 => cases finished
  | case3 fuel first pending seen visited ih =>
    rcases ih finished with old | ⟨start, queued, reached⟩
    · exact .inl old
    · exact .inr ⟨start, mem_cons_of_mem _ queued, reached⟩
  | case4 fuel first pending seen fresh ih =>
    rcases ih finished with old | ⟨start, queued, reached⟩
    · rw [BTreeSet.mem_insert] at old
      rcases old with rfl | old
      · exact .inr ⟨node, mem_cons_self, .refl⟩
      · exact .inl old
    · rcases mem_append.mp queued with queued | next
      · exact .inr ⟨start, mem_cons_of_mem _ queued, reached⟩
      · exact .inr ⟨first, mem_cons_self, reached.head next⟩

/-- A finished traversal has seen exactly what the start nodes reach. -/
theorem mem_explore_iff {starts : List κ} (finished : explore successors fuel starts ∅ = some final)
    : node ∈ final ↔ ∃ start ∈ starts, Reaches successors start node := by
  constructor
  · intro member
    rcases explore_reached finished node member with old | reached
    · simp at old
    · exact reached
  · rintro ⟨start, queued, reached⟩
    rcases explore_covers (by simp [Covered]) finished with ⟨included, closed⟩
    induction reached with
    | refl => exact included start (.inr queued)
    | tail _ step member => exact closed _ member _ step

variable [DecidableEq κ] {nodes : Finset κ}

/-- The queue entries that are still to be visited when every node outside the universe
is a dead end. -/
def work (successors : κ → List κ) (nodes : Finset κ) (pending : List κ)
    (seen : BTreeSet κ) : Nat :=
  pending.length + ∑ node ∈ nodes.filter (· ∉ seen), (successors node).length

theorem work_insert (fresh : node ∉ seen) (dead : node ∉ nodes → successors node = []) :
    work successors nodes (pending ++ successors node) (seen.insert node) =
      work successors nodes pending seen := by
  have remaining : nodes.filter (· ∉ seen.insert node) = (nodes.filter (· ∉ seen)).erase node := by
    ext other
    simp only [Finset.mem_filter, Finset.mem_erase, BTreeSet.mem_insert]
    tauto
  rw [work, remaining, length_append, Nat.add_assoc]
  congr 1
  by_cases inside : node ∈ nodes
  · have member : node ∈ nodes.filter (· ∉ seen) := Finset.mem_filter.mpr ⟨inside, fresh⟩
    exact Finset.add_sum_erase _ (fun node => (successors node).length) member
  · have outside : node ∉ nodes.filter (· ∉ seen) := fun member =>
      inside (Finset.mem_filter.mp member).1
    rw [dead inside, Finset.erase_eq_of_notMem outside, length_nil, Nat.zero_add]

theorem explore_isSome (dead : ∀ node, node ∉ nodes → successors node = [])
    (enough : work successors nodes pending seen ≤ fuel) :
    (explore successors fuel pending seen).isSome = true := by
  have cons_eq : ∀ node pending seen, work successors nodes (node :: pending) seen =
      work successors nodes pending seen + 1 := by
    intro node pending seen
    simp only [work, length_cons]
    omega
  fun_induction explore successors fuel pending seen with
  | case1 => rfl
  | case2 => simp [work] at enough
  | case3 fuel node pending seen visited ih =>
    rw [cons_eq] at enough
    exact ih (by omega)
  | case4 fuel node pending seen fresh ih =>
    rw [cons_eq] at enough
    apply ih
    rw [work_insert fresh (dead node)]
    omega

end Correctness

end BoonCircuit.Lib.Worklist
