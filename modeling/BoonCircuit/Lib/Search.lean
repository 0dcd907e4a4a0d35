import Mathlib.Data.List.Nodup

/-!
# Backtracking searches

A search walks along a path, records the path wherever it may end, steps back, and
stops as soon as it has recorded enough.  The rules say which paths such a search
records: a loop records those of its rounds, and one step further each recorded path
begins with that step.
-/

namespace BoonCircuit.Lib

open List

/-- The path walked so far and the recorded paths. -/
structure Search (α : Type) where
  current : List α
  paths : List (List α)

namespace Search

variable {α β : Type}

def push (search : Search α) (item : α) : Search α :=
  { search with current := search.current ++ [item] }

def pop (search : Search α) : Search α :=
  { search with current := search.current.dropLast }

def record (search : Search α) : Search α :=
  { search with paths := search.paths ++ [search.current] }

/-- The state after a search has found these continuations, up to the limit. -/
def found (limit : Nat) (search : Search α) (rests : List (List α)) : Search α :=
  { search with
    paths := search.paths ++ (rests.map (search.current ++ ·)).take (limit - search.paths.length) }

variable {limit : Nat} {state : Search α}

theorem found_nil : state.found limit [] = state := by
  simp [found]

theorem found_of_full (full : limit ≤ state.paths.length) (rests : List (List α)) :
    state.found limit rests = state := by
  simp [found, Nat.sub_eq_zero_of_le full]

theorem found_append {first second : List (List α)} :
    (state.found limit first).found limit second = state.found limit (first ++ second) := by
  have left : limit - (state.paths.length + min (limit - state.paths.length) first.length) =
      limit - state.paths.length - first.length := by
    omega
  simp [found, take_append, left]

theorem found_push {item : α} {rests : List (List α)} :
    ((state.push item).found limit rests).pop = state.found limit (rests.map (item :: ·)) := by
  simp [found, push, pop, Function.comp_def]

/-- The search records exactly the continuations with the property, each of them once, and
gives the walked path back. -/
def Finds (limit : Nat) (search : Search α → Option (Search α)) (Path : List α → Prop) : Prop :=
  ∃ rests : List (List α), rests.Nodup ∧ (∀ path, path ∈ rests ↔ Path path) ∧
    ∀ state, search state = some (state.found limit rests)

variable {search : Search α → Option (Search α)} {Path Other : List α → Prop}

theorem Finds.congr (finds : Finds limit search Path) (same : ∀ path, Path path ↔ Other path) :
    Finds limit search Other := by
  rcases finds with ⟨rests, nodup, member, runs⟩
  exact ⟨rests, nodup, fun path => (member path).trans (same path), runs⟩

theorem finds_none : Finds limit (α := α) some fun _ => False :=
  ⟨[], .nil, by simp, fun state => by rw [found_nil]⟩

section Stopping

-- a search that stops when it is full
variable {stopped : Search α → Option (Search α)}
  (full : ∀ state, limit ≤ state.paths.length → stopped state = some state)
include full

theorem Finds.stopping (finds : Finds limit search Path)
    (below : ∀ state, state.paths.length < limit → stopped state = search state) :
    Finds limit stopped Path := by
  rcases finds with ⟨rests, nodup, member, runs⟩
  refine ⟨rests, nodup, member, fun state => ?_⟩
  rcases Nat.lt_or_ge state.paths.length limit with room | no_room
  · rw [below state room, runs]
  · rw [full state no_room, found_of_full no_room]

theorem finds_record
    (below : ∀ state, state.paths.length < limit → stopped state = some state.record) :
    Finds limit stopped (· = []) := by
  refine ⟨[[]], by simp, by simp, fun state => ?_⟩
  rcases Nat.lt_or_ge state.paths.length limit with room | no_room
  · rw [below state room]
    rcases Nat.exists_eq_add_of_lt room with ⟨_, rfl⟩
    simp [found, record, Nat.add_assoc]
  · rw [full state no_room, found_of_full no_room]

end Stopping

theorem Finds.visit (finds : Finds limit search Path) (item : α) :
    Finds limit (fun state => (search (state.push item)).map pop)
      fun path => ∃ rest, Path rest ∧ item :: rest = path := by
  rcases finds with ⟨rests, nodup, member, runs⟩
  refine ⟨rests.map (item :: ·), nodup.map (cons_injective), fun path => ?_, fun state => ?_⟩
  · simp [member]
  · simp [runs, found_push]

/-- A loop whose rounds find different paths. -/
theorem Finds.foldlM {step : Search α → β → Option (Search α)} {PathOf : β → List α → Prop}
    {items : List β} (each : ∀ item ∈ items, Finds limit (step · item) (PathOf item))
    (apart : items.Pairwise fun first second => ∀ path, PathOf first path → ¬ PathOf second path) :
    Finds limit (items.foldlM step) fun path => ∃ item ∈ items, PathOf item path := by
  induction items with
  | nil => exact ⟨[], .nil, by simp, fun state => by simp [found_nil]⟩
  | cons item items ih =>
    rw [pairwise_cons] at apart
    rcases each item mem_cons_self with ⟨first, nodup, member, runs⟩
    rcases ih (fun item member => each item (mem_cons_of_mem _ member)) apart.2 with
      ⟨others, nodup_others, member_others, runs_others⟩
    refine ⟨first ++ others, nodup_append.mpr ⟨nodup, nodup_others, ?_⟩, ?_, ?_⟩
    · rintro path here _ there rfl
      rcases (member_others path).mp there with ⟨other, listed, found⟩
      exact apart.1 other listed path ((member path).mp here) found
    · intro path
      simp [member, member_others]
    · intro state
      simp [runs, runs_others, found_append]

/-- Fewer than two recorded paths are all there are. -/
theorem Finds.paths (finds : Finds 2 search Path) :
    ∃ paths, search ⟨[], []⟩ = some ⟨[], paths⟩ ∧ (paths = [] ↔ ∀ path, ¬ Path path) ∧
      (∀ path, paths = [path] ↔ Path path ∧ ∀ other, Path other → other = path) ∧
      (1 < paths.length ↔ ∃ path other, Path path ∧ Path other ∧ path ≠ other) := by
  rcases finds with ⟨rests, nodup, member, runs⟩
  refine ⟨rests.take 2, by simp [runs, found], ?_⟩
  simp only [← member]
  rcases rests with _ | ⟨path, _ | ⟨other, rests⟩⟩
  · simp
  · simp [eq_comm]
  · have different : path ≠ other := by
      rintro rfl
      simp at nodup
    refine ⟨iff_of_false (by simp) fun none => none path (by simp), fun given => ?_, ?_⟩
    · simp only [take_succ_cons]
      refine iff_of_false (by simp) fun ⟨_, only⟩ => different ?_
      rw [only path (by simp), only other (by simp)]
    · exact iff_of_true (by simp) ⟨path, other, by simp, by simp, different⟩

end Search

end BoonCircuit.Lib
