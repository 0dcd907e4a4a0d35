import Mathlib.Tactic.Linarith

/-!
# Updates of one item of a list

An update of the first or of the last item with a property.  Each is characterised
by the place it happens at, so that what the rest of the list satisfies carries over.
-/

namespace BoonCircuit.Lib

variable {α β : Type}

/-- Changes the first item with the property, if there is one. -/
def modifyFirst (property : α → Bool) (change : α → α) : List α → Option (List α)
  | [] => none
  | item :: rest =>
    if property item then some (change item :: rest)
    else (modifyFirst property change rest).map (item :: ·)

/-- Changes the last item with the property, if there is one. -/
def modifyLast (property : α → Bool) (change : α → α) : List α → Option (List α)
  | [] => none
  | item :: rest =>
    match modifyLast property change rest with
    | some changed => some (item :: changed)
    | none => if property item then some (change item :: rest) else none

/-- The list is another one with one item changed. -/
def Modified (property : α → Bool) (change : α → α) (items changed : List α) : Prop :=
  ∃ before item after, items = before ++ item :: after ∧ property item = true ∧
    changed = before ++ change item :: after

variable {property : α → Bool} {change : α → α} {items changed : List α}

theorem Modified.cons {first : α} (modified : Modified property change items changed) :
    Modified property change (first :: items) (first :: changed) := by
  rcases modified with ⟨before, item, after, rfl, chosen, rfl⟩
  exact ⟨first :: before, item, after, rfl, chosen, rfl⟩

theorem modified_of_modifyFirst (modified : modifyFirst property change items = some changed) :
    Modified property change items changed := by
  induction items generalizing changed with
  | nil => cases modified
  | cons first rest ih =>
    unfold modifyFirst at modified
    split at modified
    · next chosen =>
        cases modified
        exact ⟨[], first, rest, rfl, chosen, rfl⟩
    · rcases Option.map_eq_some_iff.mp modified with ⟨_, found, rfl⟩
      exact (ih found).cons

theorem modifyLast_eq_none_iff :
    modifyLast property change items = none ↔ ∀ item ∈ items, property item = false := by
  induction items with
  | nil => simp [modifyLast]
  | cons first rest ih =>
    unfold modifyLast
    split
    · next tail found =>
        have some_chosen : ¬ ∀ item ∈ rest, property item = false := by
          rw [← ih, found]
          exact Option.some_ne_none tail
        simp only [List.forall_mem_cons, some_chosen, and_false, reduceCtorEq]
    · next absent =>
        rw [List.forall_mem_cons, ← ih]
        split
        · next chosen => simp [chosen]
        · next other => simp [absent, other]

/-- The item that changes is the last one with the property. -/
theorem modifyLast_eq_some (modified : modifyLast property change items = some changed) :
    ∃ before item after, items = before ++ item :: after ∧ property item = true ∧
      (∀ later ∈ after, property later = false) ∧ changed = before ++ change item :: after := by
  induction items generalizing changed with
  | nil => cases modified
  | cons first rest ih =>
    unfold modifyLast at modified
    split at modified
    · next tail found =>
        cases modified
        rcases ih found with ⟨before, item, after, rfl, chosen, last, rfl⟩
        exact ⟨first :: before, item, after, rfl, chosen, last, rfl⟩
    · next absent =>
        split at modified
        · next chosen =>
            cases modified
            exact ⟨[], first, rest, rfl, chosen, modifyLast_eq_none_iff.mp absent, rfl⟩
        · cases modified

/-- What the change does not touch is the same in both lists. -/
theorem Modified.map_eq {view : α → β} (kept : ∀ item, view (change item) = view item)
    (modified : Modified property change items changed) : changed.map view = items.map view := by
  rcases modified with ⟨_, item, _, rfl, _, rfl⟩
  simp [kept]

end BoonCircuit.Lib
