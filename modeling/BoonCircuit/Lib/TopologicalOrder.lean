import Mathlib.Data.Fintype.EquivFin

/-!
# Greedy topological orders

Elements are taken one at a time, each time the least one whose predecessors are all
taken, until none is left.  Such a list holds exactly the elements that no cycle
reaches, and it is the least of the lists that take them after their predecessors.
-/

namespace BoonCircuit.Lib.TopologicalOrder

open List Relation

variable {α : Type} {before : α → α → Prop} {element : α}

/-- An element on a cycle, or reached from one. -/
def Blocked (before : α → α → Prop) (element : α) : Prop :=
  ∃ cyclic, TransGen before cyclic cyclic ∧ ReflTransGen before cyclic element

/-- An element that can be taken next. -/
def Available (before : α → α → Prop) (taken : List α) (element : α) : Prop :=
  element ∉ taken ∧ ∀ earlier, before earlier element → earlier ∈ taken

/-- Every element of the list comes after all its predecessors. -/
def Respects (before : α → α → Prop) (order : List α) : Prop :=
  ∀ front element back, order = front ++ element :: back →
    ∀ earlier, before earlier element → earlier ∈ front

/-- The list takes the least available element each time, until none is left. -/
def Greedy [LE α] (before : α → α → Prop) : List α → List α → Prop
  | taken, [] => ∀ element, ¬ Available before taken element
  | taken, next :: rest => Available before taken next ∧
      (∀ element, Available before taken element → next ≤ element) ∧
        Greedy before (taken ++ [next]) rest

theorem not_acc_of_transGen (cycle : TransGen before element element) : ¬ Acc before element := by
  intro accessible
  induction accessible with
  | intro element _ ih =>
    rcases TransGen.tail'_iff.mp cycle with ⟨last, reached, step⟩
    exact ih last step (TransGen.head' step reached)

/-- Among finitely many elements, those that no cycle reaches are the accessible ones. -/
theorem acc_iff_not_blocked [Finite α] : Acc before element ↔ ¬ Blocked before element := by
  constructor
  · rintro accessible ⟨cyclic, cycle, reached⟩
    have back : Acc before cyclic := by
      induction reached with
      | refl => exact accessible
      | tail _ step ih => exact ih (accessible.inv step)
    exact not_acc_of_transGen cycle back
  · intro free
    let below : { other // ReflTransGen before other element } →
        { other // ReflTransGen before other element } → Prop :=
      fun first second => TransGen before first second
    have : Std.Irrefl below := ⟨fun other cycle => free ⟨other, cycle, other.2⟩⟩
    have accessible : ∀ other : { other // ReflTransGen before other element },
        Acc before other := by
      intro other
      induction other using (Finite.wellFounded_of_trans_of_irrefl below).induction with
      | _ other ih => exact ⟨_, fun earlier step => ih ⟨earlier, other.2.head step⟩ (.single step)⟩
    exact accessible ⟨element, .refl⟩

section Greedy

variable [LinearOrder α] {taken rest : List α}

/-- What taking an available element keeps holds at the end. -/
theorem Greedy.invariant (Invariant : List α → Prop) (greedy : Greedy before taken rest)
    (step : ∀ taken next, Available before taken next → Invariant taken →
      Invariant (taken ++ [next])) (sofar : Invariant taken) : Invariant (taken ++ rest) := by
  induction rest generalizing taken with
  | nil => simpa using sofar
  | cons next rest ih => simpa using ih greedy.2.2 (step taken next greedy.1 sofar)

theorem Greedy.respects (greedy : Greedy before [] rest) : Respects before rest := by
  apply greedy.invariant
  · intro taken next available sofar front element back split
    rcases eq_nil_or_concat back with rfl | ⟨back, _, rfl⟩
    · rcases append_inj' split rfl with ⟨rfl, same⟩
      cases same
      exact available.2
    · rw [concat_eq_append, ← cons_append, ← append_assoc] at split
      exact sofar front element back (append_inj_left' split rfl)
  · simp [Respects]

theorem Greedy.nodup (greedy : Greedy before [] rest) : rest.Nodup := by
  apply greedy.invariant
  · intro taken next available sofar
    simpa [concat_eq_append] using sofar.concat available.1
  · exact nodup_nil

theorem Greedy.not_available (greedy : Greedy before taken rest) (element : α) :
    ¬ Available before (taken ++ rest) element := by
  induction rest generalizing taken with
  | nil => simpa using greedy element
  | cons next rest ih => simpa using ih greedy.2.2

theorem Greedy.acc (greedy : Greedy before [] rest) : ∀ element ∈ rest, Acc before element := by
  refine greedy.invariant (fun taken => ∀ element ∈ taken, Acc before element) ?_ ?_
  · intro taken next available sofar
    have accessible : Acc before next := ⟨_, fun _ step => sofar _ (available.2 _ step)⟩
    simpa [or_imp, forall_and] using ⟨sofar, accessible⟩
  · simp

/-- The taken elements are exactly those that no cycle reaches. -/
theorem Greedy.mem_iff [Finite α] (greedy : Greedy before [] rest) :
    element ∈ rest ↔ ¬ Blocked before element := by
  rw [← acc_iff_not_blocked]
  constructor
  · exact greedy.acc element
  · intro accessible
    induction accessible with
    | intro element _ ih =>
      by_contra absent
      exact greedy.not_available element ⟨absent, ih⟩

/-- No list of the same elements that respects the relation is smaller. -/
theorem Greedy.not_lex (greedy : Greedy before taken rest) {other : List α}
    (same : other.Perm rest) (distinct : (taken ++ other).Nodup)
    (respects : Respects before (taken ++ other)) : ¬ List.Lex (· < ·) other rest := by
  intro smaller
  induction smaller generalizing taken with
  | nil => cases same.nil_eq
  | rel less =>
    have available : Available before taken _ :=
      ⟨(nodup_middle.mp distinct).notMem ∘ mem_append_left _, respects taken _ _ rfl⟩
    exact (greedy.2.1 _ available).not_gt less
  | cons _ ih =>
    rw [append_cons] at distinct respects
    exact ih greedy.2.2 same.cons_inv distinct respects

end Greedy

end BoonCircuit.Lib.TopologicalOrder
