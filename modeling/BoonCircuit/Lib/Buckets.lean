import Mathlib.Algebra.Order.BigOperators.Group.List
import Mathlib.Data.List.OfFn
import Mathlib.Data.List.Induction
import Mathlib.Algebra.Order.Ring.Nat

/-!
# Buckets packed into one column

Items that name a bucket are counted, the counts are added up to offsets, and a second
pass writes each item at the cursor of its bucket.  The rows between two offsets are
then the buckets, with the items in the order of the pass.
-/

namespace BoonCircuit.Lib.Buckets

open List

variable {α : Type} {n : Nat}

/-- How many items name each bucket. -/
def counts (items : List (Fin n × α)) : Fin n → Nat :=
  items.foldl (fun sizes item => Function.update sizes item.1 (sizes item.1 + 1)) fun _ => 0

/-- Where a row starts: the sizes of the rows before it, added up. -/
def offset (sizes : Fin n → Nat) (row : Nat) : Nat :=
  ((List.ofFn sizes).take row).sum

/-- The column while it is filled; cells that no item has reached are empty. -/
structure Column (n : Nat) (α : Type) where
  cursors : Fin n → Nat
  cells : Nat → Option α

/-- Writes an item at the cursor of its bucket. -/
def place (column : Column n α) (item : Fin n × α) : Column n α where
  cursors := Function.update column.cursors item.1 (column.cursors item.1 + 1)
  cells := Function.update column.cells (column.cursors item.1) (some item.2)

/-- Fills the column from cursors at the offsets. -/
def fill (sizes : Fin n → Nat) (items : List (Fin n × α)) : Column n α :=
  items.foldl place ⟨fun row => offset sizes row, fun _ => none⟩

/-- The cells between two offsets. -/
def Column.row (column : Column n α) (start stop : Nat) : List α :=
  (List.range' start (stop - start)).filterMap column.cells

/-- The items of one bucket. -/
def bucket (items : List (Fin n × α)) (row : Fin n) : List α :=
  (items.filter (·.1 = row)).map (·.2)

variable {items : List (Fin n × α)} {sizes : Fin n → Nat} {row other : Fin n}

theorem mem_bucket {element : α} : element ∈ bucket items row ↔ (row, element) ∈ items := by
  simp [bucket]

theorem count_bucket [DecidableEq α] (element : α) :
    (bucket items row).count element = items.count (row, element) := by
  simp only [bucket, count, countP_map, countP_filter]
  refine countP_congr fun item _ => ?_
  simp [Prod.ext_iff, and_comm]

@[simp]
theorem bucket_concat (item : Fin n × α) :
    bucket (items ++ [item]) row = bucket items row ++ if item.1 = row then [item.2] else [] := by
  by_cases same : item.1 = row <;> simp [bucket, same]

theorem counts_eq (items : List (Fin n × α)) (row : Fin n) :
    counts items row = (bucket items row).length := by
  induction items using reverseRecOn with
  | nil => rfl
  | append_singleton items item ih =>
    rw [counts, foldl_concat, ← counts, bucket_concat, length_append, ← ih]
    by_cases same : item.1 = row
    · simp [same]
    · simp [same, Ne.symm same]

theorem offset_succ (row : Fin n) : offset sizes (row + 1) = offset sizes row + sizes row := by
  rw [offset, sum_take_succ _ _ (by simp), List.getElem_ofFn, offset]

theorem offset_add_le (sizes : Fin n → Nat) (less : row < other) :
    offset sizes row + sizes row ≤ offset sizes other := by
  rw [← offset_succ]
  exact monotone_sum_take _ less

theorem fill_concat (item : Fin n × α) :
    fill sizes (items ++ [item]) = place (fill sizes items) item :=
  foldl_concat ..

/-- While no bucket is larger than its size, every cursor stands behind the items of its
bucket. -/
theorem fill_spec (fits : ∀ row, (bucket items row).length ≤ sizes row) (row : Fin n) :
    (fill sizes items).cursors row = offset sizes row + (bucket items row).length ∧
      (List.range' (offset sizes row) (bucket items row).length).filterMap
        (fill sizes items).cells = bucket items row := by
  induction items using reverseRecOn generalizing row with
  | nil => simp [fill, bucket]
  | append_singleton items item ih =>
    have room : ∀ row, (bucket items row).length ≤ sizes row := by
      intro row
      have := fits row
      simp at this
      omega
    have next := fits item.1
    rw [bucket_concat, if_pos rfl, length_append, length_singleton] at next
    rcases ih room item.1 with ⟨cursor, _⟩
    rcases ih room row with ⟨cursor_row, cells_row⟩
    -- the cell that is written belongs to no item placed before
    have apart : ∀ cell ∈ range' (offset sizes row) (bucket items row).length,
        cell ≠ (fill sizes items).cursors item.1 := by
      intro cell member
      have within := mem_range'_1.mp member
      have size := room row
      rcases lt_trichotomy row item.1 with less | rfl | less
      · have := offset_add_le sizes less
        omega
      · omega
      · have := offset_add_le sizes less
        omega
    have kept : (range' (offset sizes row) (bucket items row).length).filterMap
        (fill sizes (items ++ [item])).cells = bucket items row := by
      rw [fill_concat]
      refine (filterMap_congr fun cell member => ?_).trans cells_row
      exact Function.update_of_ne (apart cell member) ..
    by_cases same : item.1 = row
    · subst same
      rw [bucket_concat, if_pos rfl, length_append, length_singleton,
        range'_concat, filterMap_append, kept]
      simp [fill_concat, place, cursor, Nat.add_assoc]
    · rw [bucket_concat, if_neg same]
      simpa [fill_concat, place, Ne.symm same, cursor_row] using kept

theorem row_fill (items : List (Fin n × α)) (row : Fin n) :
    (fill (counts items) items).row (offset (counts items) row)
      (offset (counts items) (row + 1)) = bucket items row := by
  rw [Column.row, offset_succ, Nat.add_sub_cancel_left, counts_eq]
  exact (fill_spec (fun row => (counts_eq items row).ge) row).2

end BoonCircuit.Lib.Buckets
