import Mathlib.Data.List.Basic
import Mathlib.Data.List.Pairwise
import Mathlib.Logic.Function.Iterate

/-!
# Running numbers

Items that carry consecutive numbers without a gap, and slots that are visited one
after the other and take the next number of a counter.
-/

namespace BoonCircuit.Lib

open List

variable {α : Type} {number : α → Nat} {start : Nat} {items rest : List α} {item : α}

/-- The items carry the numbers `start + 1`, `start + 2` and so on. -/
def Numbered (number : α → Nat) (start : Nat) (items : List α) : Prop :=
  items.map number = List.range' (start + 1) items.length

namespace Numbered

theorem nil : Numbered number start [] :=
  rfl

theorem append_iff : Numbered number start (items ++ rest) ↔
    Numbered number start items ∧ Numbered number (start + items.length) rest := by
  unfold Numbered
  rw [map_append, length_append, ← range'_append_1, Nat.add_right_comm start 1]
  constructor
  · intro joined
    exact append_inj joined (by simp)
  · rintro ⟨first, second⟩
    rw [first, second]

theorem cons_iff : Numbered number start (item :: rest) ↔
    number item = start + 1 ∧ Numbered number (start + 1) rest := by
  unfold Numbered
  rw [map_cons, length_cons, range'_succ, List.cons.injEq]

section Numbered

variable (numbered : Numbered number start items)

include numbered

theorem concat
    (next : number item = start + items.length + 1) : Numbered number start (items ++ [item]) :=
  append_iff.mpr ⟨numbered, cons_iff.mpr ⟨next, nil⟩⟩

theorem lt_of_mem (member : item ∈ items) : start < number item := by
  have listed : number item ∈ List.range' (start + 1) items.length :=
    numbered ▸ mem_map_of_mem member
  exact (mem_range'_1.mp listed).1

theorem le_of_mem (member : item ∈ items) : number item ≤ start + items.length := by
  have listed : number item ∈ List.range' (start + 1) items.length :=
    numbered ▸ mem_map_of_mem member
  have below := (mem_range'_1.mp listed).2
  omega

theorem getLast_eq (last : items.getLast? = some item) : number item = start + items.length := by
  rcases getLast?_eq_some_iff.mp last with ⟨_, rfl⟩
  rw [(cons_iff.mp (append_iff.mp numbered).2).1, length_append]
  rfl

theorem pairwise : items.Pairwise fun earlier later => number earlier < number later := by
  induction items generalizing start with
  | nil => exact .nil
  | cons item items ih =>
    rcases cons_iff.mp numbered with ⟨first, remaining⟩
    refine .cons (fun later member => ?_) (ih remaining)
    exact first ▸ remaining.lt_of_mem member

end Numbered

/-- Dropping the numbers up to some item drops what stands before its successor. -/
theorem dropWhile_eq (numbered : Numbered number start (items ++ rest)) :
    (items ++ rest).dropWhile (fun item => decide (number item ≤ start + items.length)) = rest := by
  rcases append_iff.mp numbered with ⟨first, second⟩
  rw [dropWhile_append_of_pos fun item member => decide_eq_true (first.le_of_mem member)]
  cases rest with
  | nil => rfl
  | cons =>
    simp [(cons_iff.mp second).1]

end Numbered

variable {σ κ ν : Type} [DecidableEq κ]

/-- Visiting a slot that can be written gives it the counter and moves the counter on. -/
structure Numbers (step : σ → κ → σ) (lookup : σ → κ → Option ν) (counter : σ → ν) (next : ν → ν)
    (Writable : σ → κ → Prop) : Prop where
  writable_step : ∀ {state : σ} {slot other : κ},
    Writable state other → Writable (step state slot) other
  counter_step : ∀ {state : σ} {slot : κ}, counter (step state slot) = next (counter state)
  lookup_step : ∀ {state : σ} {slot other : κ}, Writable state slot →
    lookup (step state slot) other =
      if slot = other then some (counter state) else lookup state other

theorem idxOf_map {κ' : Type} [BEq κ] [LawfulBEq κ] [BEq κ'] [LawfulBEq κ'] {view : κ → κ'}
    (injective : Function.Injective view) {slots : List κ} (slot : κ) :
    (slots.map view).idxOf (view slot) = slots.idxOf slot := by
  induction slots with
  | nil => rfl
  | cons first slots ih =>
    rw [map_cons]
    by_cases same : first = slot
    · rw [idxOf_cons_eq _ (congrArg view same), idxOf_cons_eq _ same]
    · rw [idxOf_cons_ne _ (injective.ne same), idxOf_cons_ne _ same, ih]

namespace Numbers

variable {step : σ → κ → σ} {lookup : σ → κ → Option ν} {counter : σ → ν} {next : ν → ν}
  {Writable : σ → κ → Prop} {slots : List κ} {slot : κ} {state : σ}

theorem lookup_foldl_of_notMem (numbers : Numbers step lookup counter next Writable)
    (writable : ∀ other ∈ slots, Writable state other) (missing : slot ∉ slots) :
    lookup (slots.foldl step state) slot = lookup state slot := by
  induction slots generalizing state with
  | nil => rfl
  | cons first slots ih =>
    obtain ⟨apart, missing⟩ := not_or.mp (mt mem_cons.mpr missing)
    rw [foldl_cons, ih _ missing, numbers.lookup_step (writable first mem_cons_self),
      if_neg (Ne.symm apart)]
    exact fun other member => numbers.writable_step (writable other (mem_cons_of_mem _ member))

/-- A slot that is visited once carries the number of its place. -/
theorem lookup_foldl_of_mem [BEq κ] [LawfulBEq κ]
    (numbers : Numbers step lookup counter next Writable)
    (writable : ∀ other ∈ slots, Writable state other) (distinct : slots.Nodup)
    (member : slot ∈ slots) :
    lookup (slots.foldl step state) slot = some (next^[slots.idxOf slot] (counter state)) := by
  induction slots generalizing state with
  | nil => cases member
  | cons first slots ih =>
    obtain ⟨fresh, distinct⟩ := nodup_cons.mp distinct
    have later : ∀ other ∈ slots, Writable (step state first) other :=
      fun other member => numbers.writable_step (writable other (mem_cons_of_mem _ member))
    rw [foldl_cons]
    by_cases same : first = slot
    · subst same
      rw [numbers.lookup_foldl_of_notMem later fresh,
        numbers.lookup_step (writable first mem_cons_self), if_pos rfl, idxOf_cons_self]
      rfl
    · have inRest := (mem_cons.mp member).resolve_left (Ne.symm same)
      rw [ih later distinct inRest, idxOf_cons_ne _ same, numbers.counter_step]
      rfl

end Numbers

end BoonCircuit.Lib
