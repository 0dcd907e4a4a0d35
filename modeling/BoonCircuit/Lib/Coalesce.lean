import Mathlib.Data.List.Induction

/-!
# Coalescing of updates

Updates with a slot are coalesced: a later one of the slot takes the place of the first.
What is seen last at the end depends on what came between the two.
-/

namespace BoonCircuit.Lib.Coalesce

open List Option

variable {α β κ : Type} [DecidableEq κ] {slot : α → Option κ} {view : α → Option β}
  {items front back : List α} {item : α} {key : κ}

/-- The output so far and where the slots are in it. -/
structure State (α κ : Type) where
  output : List α
  positions : κ → Option Nat

variable {state : State α κ}

def step (slot : α → Option κ) (state : State α κ) (item : α) : State α κ :=
  match slot item with
  | none => { state with output := state.output ++ [item] }
  | some key =>
    match state.positions key with
    | some position => { state with output := state.output.set position item }
    | none => ⟨state.output ++ [item], fun other =>
      if other = key then some state.output.length else state.positions other⟩

def coalesce (slot : α → Option κ) (items : List α) : List α :=
  (items.foldl (step slot) ⟨[], fun _ => none⟩).output

/-- The last effect of some items. -/
def last (view : α → Option β) (items : List α) : Option β :=
  (items.filterMap view).getLast?

theorem last_append : last view (front ++ back) = (last view back).or (last view front) := by
  simp [last]

theorem last_singleton : last view [item] = view item := by
  cases seen : view item <;> simp [last, seen]

/-- The last effects before a slot comes, in the slot, and beside it since. -/
structure Trace (β : Type) where
  plain : Option β
  write : Option β
  later : Option β

def Trace.next (slot : α → Option κ) (view : α → Option β) (key : κ) (trace : Trace β)
    (item : α) : Trace β :=
  if slot item = some key then
    { trace with write := view item }
  else if trace.write.isSome then
    { trace with later := (view item).or trace.later }
  else
    { trace with plain := (view item).or trace.plain }

def trace (slot : α → Option κ) (view : α → Option β) (key : κ) (items : List α) : Trace β :=
  items.foldl (Trace.next slot view key) ⟨none, none, none⟩

/-- What is seen last if the slot stays where it came first. -/
def Trace.seen (trace : Trace β) : Option β :=
  trace.later.or (trace.write.or trace.plain)

theorem trace_concat : trace slot view key (items ++ [item]) =
    (trace slot view key items).next slot view key item := by
  simp [trace]

theorem trace_of_absent (absent : ∀ item ∈ items, slot item ≠ some key) :
    trace slot view key items = ⟨last view items, none, none⟩ := by
  induction items using reverseRecOn with
  | nil => rfl
  | append_singleton items item ih =>
    rw [forall_mem_append] at absent
    rw [trace_concat, ih absent.1, last_append, last_singleton]
    simp [Trace.next, absent.2]

section Visible

variable (visible : ∀ item, slot item = some key → (view item).isSome)

include visible

theorem trace_of_once (absent : ∀ item ∈ front ++ back, slot item ≠ some key)
    (first : slot item = some key) :
    trace slot view key (front ++ item :: back) =
      ⟨last view front, view item, last view back⟩ := by
  induction back using reverseRecOn with
  | nil =>
    rw [append_nil] at absent
    rw [trace_concat, trace_of_absent absent]
    simp [Trace.next, first, last]
  | append_singleton back other ih =>
    rw [← append_assoc, forall_mem_append] at absent
    rw [← cons_append, ← append_assoc, trace_concat, ih absent.1, last_append, last_singleton]
    simp [Trace.next, absent.2, visible item first]

/-- Without effects beside the slot the order does not matter. -/
theorem last_of_quiet (quiet : (trace slot view key items).later = none) :
    last view items = (trace slot view key items).seen := by
  induction items using reverseRecOn with
  | nil => rfl
  | append_singleton items item =>
    rw [trace_concat] at quiet ⊢
    rw [last_append, last_singleton]
    unfold Trace.next at quiet ⊢
    split at quiet
    · next slotted =>
        obtain ⟨seen, _⟩ := isSome_iff_exists.mp (visible item slotted)
        simp_all [Trace.seen]
    · split at quiet
      · rw [or_eq_none_iff] at quiet
        simp_all [Trace.seen]
      · simp_all [Trace.seen]

end Visible

/-- Slots are where the positions say. -/
def Placed (slot : α → Option κ) (state : State α κ) : Prop :=
  ∀ key index, state.output[index]?.bind slot = some key ↔ state.positions key = some index

omit [DecidableEq κ] in
theorem bind_getElem?_concat (index : Nat) : (items ++ [item])[index]?.bind slot =
    if index = items.length then slot item else items[index]?.bind slot := by
  rcases Nat.lt_trichotomy index items.length with inside | rfl | outside
  · rw [if_neg (Nat.ne_of_lt inside), getElem?_append_left inside]
  · rw [if_pos rfl, getElem?_concat_length, bind_some]
  · rw [if_neg (Nat.ne_of_gt outside), getElem?_eq_none (Nat.le_of_lt outside),
      getElem?_eq_none (by rwa [length_append])]

theorem Placed.after (placed : Placed slot state) : Placed slot (step slot state item) := by
  have fresh : ∀ other, state.positions other ≠ some state.output.length := by
    intro other there
    rw [← placed, getElem?_eq_none (Nat.le_refl _)] at there
    cases there
  intro other index
  unfold step
  split
  · next unslotted =>
      rw [bind_getElem?_concat, unslotted]
      split
      · next same => simpa [same] using fresh other
      · exact placed other index
  · next key slotted =>
      split
      · next position there =>
          have inside := (placed key position).mpr there
          obtain ⟨old, found, _⟩ := bind_eq_some_iff.mp inside
          obtain ⟨bound, _⟩ := List.getElem?_eq_some_iff.mp found
          by_cases same : position = index
          · rw [← same, getElem?_set_self bound, bind_some, slotted, ← inside]
            exact placed other position
          · rw [getElem?_set_ne same]
            exact placed other index
      · next absent =>
          rw [bind_getElem?_concat, slotted]
          dsimp only
          by_cases same : other = key
          · rw [same]
            split
            · next last => simp [last]
            · next apart =>
                rw [placed, absent]
                simp [Ne.symm apart]
          · rw [if_neg same]
            split
            · next last => simpa [last, Ne.symm same] using fresh other
            · exact placed other index

omit [DecidableEq κ] in
theorem Placed.split {index : Nat} (placed : Placed slot state)
    (position : state.positions key = some index) :
    ∃ front old back, state.output = front ++ old :: back ∧ front.length = index ∧
      slot old = some key ∧ ∀ item ∈ front ++ back, slot item ≠ some key := by
  obtain ⟨old, found, same⟩ := bind_eq_some_iff.mp ((placed key index).mpr position)
  obtain ⟨inside, rfl⟩ := List.getElem?_eq_some_iff.mp found
  refine ⟨state.output.take index, _, state.output.drop (index + 1), ?_, ?_, same, ?_⟩
  · rw [← drop_eq_getElem_cons inside, take_append_drop]
  · exact length_take_of_le (Nat.le_of_lt inside)
  · intro item member holds
    rw [← eraseIdx_eq_take_drop_succ] at member
    obtain ⟨place, apart, there⟩ := mem_eraseIdx_iff_getElem?.mp member
    have again := (placed key place).mp (by rw [there]; exact holds)
    exact apart (some.inj (again.symm.trans position))

variable (visible : ∀ item, slot item = some key → (view item).isSome)

include visible

theorem Placed.seen_trace (placed : Placed slot state) :
    (trace slot view key state.output).seen = last view state.output := by
  cases position : state.positions key with
  | none =>
    rw [trace_of_absent]
    · rfl
    · intro item member same
      obtain ⟨index, found⟩ := mem_iff_getElem?.mp member
      have there := (placed key index).mp (by rw [found]; exact same)
      cases position.symm.trans there
  | some =>
    obtain ⟨_, old, _, output, _, same, absent⟩ := placed.split position
    rw [output, trace_of_once visible absent same, last_append, ← singleton_append, last_append,
      last_singleton, Option.or_assoc]
    rfl

variable (apart : ∀ item other, slot item = some other → other ≠ key → view item = none)

include apart

theorem Placed.trace_step (placed : Placed slot state) :
    trace slot view key (step slot state item).output =
      (trace slot view key state.output).next slot view key item := by
  unfold step
  split
  · exact trace_concat
  · next other slotted =>
      split
      · next position =>
          obtain ⟨_, old, _, output, rfl, same, absent⟩ := placed.split position
          rw [output, set_append_right _ _ (Nat.le_refl _), Nat.sub_self, set_cons_zero]
          by_cases equal : other = key
          · subst equal
            rw [trace_of_once visible absent slotted, trace_of_once visible absent same,
              Trace.next, if_pos slotted]
          · have quiet : ∀ item (start : Trace β), slot item = some other →
                start.next slot view key item = start := by
              intro item start slotted
              simp [Trace.next, slotted, equal, apart item other slotted equal]
            simp only [trace, foldl_append, foldl_cons, quiet _ _ slotted, quiet _ _ same]
      · exact trace_concat

/-- Coalescing keeps the last effect if and only if the last effect beside a slot since its
first item, if there is one, is the last of all. -/
theorem last_coalesce_iff :
    last view (coalesce slot items) = last view items ↔
      ∀ seen, (trace slot view key items).later = some seen → last view items = some seen := by
  have run : Placed slot (items.foldl (step slot) ⟨[], fun _ => none⟩) ∧
      trace slot view key (coalesce slot items) = trace slot view key items := by
    unfold coalesce
    induction items using reverseRecOn with
    | nil => exact ⟨fun _ _ => by simp, rfl⟩
    | append_singleton items item ih =>
      rw [foldl_append, trace_concat, ← ih.2]
      exact ⟨ih.1.after, ih.1.trace_step visible apart⟩
  have seen : last view (coalesce slot items) = (trace slot view key items).seen :=
    run.2 ▸ (run.1.seen_trace visible).symm
  rw [seen]
  cases later : (trace slot view key items).later with
  | none => simp [last_of_quiet visible later]
  | some => simp [Trace.seen, later, eq_comm]

end BoonCircuit.Lib.Coalesce
