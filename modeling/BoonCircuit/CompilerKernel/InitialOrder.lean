import BoonCircuit.Lib.Buckets
import BoonCircuit.Lib.Checks
import BoonCircuit.Lib.TopologicalOrder
import Mathlib.Data.Finset.Sort
import Mathlib.Data.Set.Card

/-!
# The initial order of operations

Operations of a component run after the first writers of what they read, as far as
cycles allow.  The order is found by counting unscheduled writers: an operation without
one is ready, and scheduling it releases its consumers, which stand packed in a column.
-/

namespace BoonCircuit.CompilerKernel

open Lib Buckets TopologicalOrder List

variable {v n : Nat}

/-- The variables that each operation of a component writes and reads. -/
structure Topology (v n : Nat) where
  outputs : Fin n → List (Fin v)
  dependencies : Fin n → List (Fin v)

namespace Topology

variable (topology : Topology v n)

/-- An operation becomes the writer of its outputs that have none. -/
def claimOutputs (writers : Fin v → Option (Fin n)) (operation : Fin n) : Fin v → Option (Fin n) :=
  (topology.outputs operation).foldl
    (fun writers output =>
      if (writers output).isNone then Function.update writers output (some operation) else writers)
    writers

/-- The writer table: the first operation that writes each variable. -/
def writers : Fin v → Option (Fin n) :=
  (List.finRange n).foldl topology.claimOutputs fun _ => none

/-- The other operations that write what an operation reads, sorted and without repetition. -/
def dependencyWriters (consumer : Fin n) : List (Fin n) :=
  let found := (topology.dependencies consumer).filterMap fun dependency =>
    (topology.writers dependency).filter (· ≠ consumer)
  found.toFinset.sort

/-- Writers with their consumers, as both passes over the dependencies meet them. -/
def edges : List (Fin n × Fin n) :=
  (List.finRange n).flatMap fun consumer =>
    (topology.dependencyWriters consumer).map fun writer => (writer, consumer)

end Topology

/-- The state of the scheduling loop; the heap of ready operations is an ascending list. -/
structure Schedule (n : Nat) where
  indegree : Fin n → Nat
  ready : List (Fin n)
  emitted : Fin n → Bool
  ordered : List (Fin n)

/-- One writer of the consumer has been scheduled. -/
def Schedule.release (schedule : Schedule n) (consumer : Fin n) : Schedule n :=
  let indegree := schedule.indegree consumer - 1
  { schedule with
    indegree := Function.update schedule.indegree consumer indegree
    ready := if indegree = 0 then schedule.ready.orderedInsert (· ≤ ·) consumer
      else schedule.ready }

@[simp]
theorem Schedule.ordered_release (schedule : Schedule n) (consumer : Fin n) :
    (schedule.release consumer).ordered = schedule.ordered :=
  rfl

theorem Schedule.ready_release (schedule : Schedule n) (consumer : Fin n) :
    (schedule.release consumer).ready =
      if schedule.indegree consumer - 1 = 0 then schedule.ready.orderedInsert (· ≤ ·) consumer
      else schedule.ready :=
  rfl

/-- Schedules an operation and releases its consumers. -/
def Schedule.emit (outgoing : Fin n → List (Fin n)) (schedule : Schedule n) (operation : Fin n) :
    Schedule n :=
  (outgoing operation).foldl Schedule.release
    { schedule with
      emitted := Function.update schedule.emitted operation true
      ordered := schedule.ordered ++ [operation] }

/-- Schedules ready operations, the least first, until none is left. -/
def Schedule.drain (outgoing : Fin n → List (Fin n)) : Nat → Schedule n → Option (Schedule n)
  | 0, _ => none
  | fuel + 1, schedule =>
    match schedule.ready with
    | [] => some schedule
    | operation :: ready =>
      if schedule.emitted operation then drain outgoing fuel { schedule with ready }
      else drain outgoing fuel ({ schedule with ready }.emit outgoing operation)

namespace Topology

variable (topology : Topology v n)

/-- Numbers of writers that are not scheduled yet; at first all are. -/
def start : Schedule n :=
  let indegree := counts (topology.edges.map Prod.swap)
  { indegree
    ready := (List.finRange n).filter (indegree · = 0)
    emitted := fun _ => false
    ordered := [] }

/-- The consumers of an operation in the packed column. -/
def outgoing (operation : Fin n) : List (Fin n) :=
  let offsets := offset (counts topology.edges)
  (fill (counts topology.edges) topology.edges).row (offsets operation) (offsets (operation + 1))

/-- The order in which operations run first, and how many of them no cycle blocks. -/
def initialOperationOrder : Option (List (Fin n) × Nat) := do
  let schedule ← topology.start.drain topology.outgoing (n + 1)
  let blocked := (List.finRange n).filter fun operation =>
    !schedule.emitted operation
  pure (schedule.ordered ++ blocked, schedule.ordered.length)

/-- The first operation that writes a variable. -/
def IsFirstWriter (output : Fin v) (writer : Fin n) : Prop :=
  output ∈ topology.outputs writer ∧ ∀ earlier < writer, output ∉ topology.outputs earlier

/-- The first writer of a variable and another operation that depends on it. -/
def Feeds (writer consumer : Fin n) : Prop :=
  writer ≠ consumer ∧
    ∃ dependency ∈ topology.dependencies consumer, topology.IsFirstWriter dependency writer

end Topology

section Loop

variable {schedule : Schedule n} {operation consumer : Fin n} {ready pending : List (Fin n)}
  {incoming outgoing : Fin n → List (Fin n)}

/-- The state of the loop, for lists of the writers each operation waits for, while some
consumers of the last operation are still to be released. -/
structure Schedule.Invariant (incoming : Fin n → List (Fin n)) (pending : List (Fin n))
    (schedule : Schedule n) : Prop where
  sorted : schedule.ready.Pairwise (· ≤ ·)
  distinct : schedule.ready.Nodup
  mem_ready : ∀ operation, operation ∈ schedule.ready ↔
    schedule.indegree operation = 0 ∧ operation ∉ schedule.ordered
  nodup : schedule.ordered.Nodup
  emitted_iff : ∀ operation, schedule.emitted operation = true ↔ operation ∈ schedule.ordered
  indegree_eq : ∀ operation, schedule.indegree operation =
    (incoming operation).countP (· ∉ schedule.ordered) + pending.count operation
  served : ∀ operation ∈ schedule.ordered, schedule.indegree operation = 0

theorem Schedule.Invariant.release (invariant : schedule.Invariant incoming (consumer :: pending)) :
    (schedule.release consumer).Invariant incoming pending := by
  have waiting := invariant.indegree_eq consumer
  rw [count_cons_self] at waiting
  have fresh : consumer ∉ schedule.ordered := fun done => by
    have := invariant.served consumer done
    omega
  have absent : consumer ∉ schedule.ready := by
    rw [invariant.mem_ready]
    omega
  have others : ∀ operation ≠ consumer,
      (schedule.release consumer).indegree operation = schedule.indegree operation :=
    fun operation other => Function.update_of_ne other ..
  have released : (schedule.release consumer).indegree consumer = schedule.indegree consumer - 1 :=
    Function.update_self ..
  refine { invariant with
    sorted := ?_, distinct := ?_, mem_ready := fun operation => ?_,
    indegree_eq := fun operation => ?_, served := fun operation done => ?_ }
  · rw [ready_release]
    split
    · exact invariant.sorted.orderedInsert ..
    · exact invariant.sorted
  · rw [ready_release]
    split
    · exact (perm_orderedInsert ..).nodup_iff.mpr (invariant.distinct.cons absent)
    · exact invariant.distinct
  · by_cases same : operation = consumer
    · subst same
      rw [released, ready_release]
      split
      · next last => simp [last, fresh]
      · next more => simp [more, absent]
    · rw [others operation same, ordered_release, ← invariant.mem_ready, ready_release]
      split <;> simp [same]
  · by_cases same : operation = consumer
    · subst same
      rw [ordered_release]
      omega
    · rw [others operation same, invariant.indegree_eq, count_cons_of_ne (Ne.symm same),
        ordered_release]
  · rw [others operation fun same => fresh (same ▸ done)]
    exact invariant.served operation done

theorem Schedule.Invariant.foldl_release (invariant : schedule.Invariant incoming pending) :
    (pending.foldl Schedule.release schedule).Invariant incoming [] := by
  induction pending generalizing schedule with
  | nil => exact invariant
  | cons consumer pending ih => exact ih invariant.release

theorem countP_notMem_concat {α : Type} [DecidableEq α] {taken : List α} {next : α}
    (fresh : next ∉ taken) (items : List α) :
    items.countP (· ∉ taken) = items.countP (· ∉ taken ++ [next]) + items.count next := by
  induction items with
  | nil => rfl
  | cons item items ih =>
    by_cases same : item = next
    · subst same
      simp [fresh] at ih ⊢
      omega
    · by_cases member : item ∈ taken <;> simp [same, member] at ih ⊢ <;> omega

/-- One round schedules the least ready operation. -/
theorem Schedule.Invariant.emit (invariant : schedule.Invariant incoming [])
    (transposed : ∀ writer consumer, (outgoing writer).count consumer =
      (incoming consumer).count writer) (popped : schedule.ready = operation :: ready) :
    ({ schedule with ready }.emit outgoing operation).Invariant incoming [] := by
  have distinct := invariant.distinct
  rw [popped] at distinct
  have member : operation ∈ schedule.ready := popped ▸ mem_cons_self
  rcases (invariant.mem_ready operation).mp member with ⟨free, fresh⟩
  refine Schedule.Invariant.foldl_release
    { sorted := (popped ▸ invariant.sorted).tail, distinct := distinct.tail,
      mem_ready := fun other => ?_, nodup := invariant.nodup.append (nodup_singleton _) ?_,
      emitted_iff := fun other => ?_, indegree_eq := fun consumer => ?_, served := ?_ }
  · have mem_ready := invariant.mem_ready other
    rw [popped] at mem_ready
    by_cases same : other = operation
    · simp [same, (nodup_cons.mp distinct).1]
    · simpa [same] using mem_ready
  · simpa using fresh
  · by_cases same : other = operation
    · simp [same]
    · simp [same, invariant.emitted_iff]
  · rw [transposed, ← countP_notMem_concat fresh]
    exact invariant.indegree_eq consumer
  · simpa [or_imp, forall_and] using ⟨invariant.served, free⟩

/-- An operation is ready when the operations it waits for are scheduled. -/
theorem Schedule.Invariant.mem_ready_iff (invariant : schedule.Invariant incoming []) :
    operation ∈ schedule.ready ↔
      Available (fun writer consumer => writer ∈ incoming consumer) schedule.ordered operation := by
  rw [invariant.mem_ready, invariant.indegree_eq, Available]
  simp [and_comm]

/-- The loop ends, and what it adds is the greedy order. -/
theorem Schedule.Invariant.drain (transposed : ∀ writer consumer,
      (outgoing writer).count consumer = (incoming consumer).count writer) {fuel : Nat}
    (invariant : schedule.Invariant incoming []) (enough : n < fuel + schedule.ordered.length) :
    ∃ rest final, schedule.drain outgoing fuel = some final ∧ final.Invariant incoming [] ∧
      final.ordered = schedule.ordered ++ rest ∧
        Greedy (fun writer consumer => writer ∈ incoming consumer) schedule.ordered rest := by
  induction fuel generalizing schedule with
  | zero =>
    have bound := invariant.nodup.length_le_card
    rw [Fintype.card_fin] at bound
    omega
  | succ fuel ih =>
    cases popped : schedule.ready with
    | nil =>
      refine ⟨[], schedule, ?_, invariant, (append_nil _).symm, fun other available => ?_⟩
      · rw [Schedule.drain, popped]
      · have member := invariant.mem_ready_iff.mpr available
        rw [popped] at member
        cases member
    | cons operation ready =>
      have after := invariant.emit transposed popped
      have ordered_eq : ({ schedule with ready }.emit outgoing operation).ordered =
          schedule.ordered ++ [operation] := by
        apply Checks.foldl_view Schedule.ordered
        exact fun _ _ => rfl
      rcases ih after (by simp only [ordered_eq, length_append, length_singleton]; omega)
        with ⟨rest, final, drained, finished, final_eq, greedy⟩
      rw [ordered_eq] at final_eq greedy
      have available := invariant.mem_ready_iff.mp (popped ▸ mem_cons_self)
      have fresh : schedule.emitted operation = false := by
        simpa [← invariant.emitted_iff] using available.1
      refine ⟨operation :: rest, final, ?_, finished, by simpa using final_eq, available,
        fun other available => ?_, greedy⟩
      · rw [Schedule.drain, popped]
        simpa [fresh] using drained
      · have sorted := invariant.sorted
        have member := invariant.mem_ready_iff.mpr available
        rw [popped] at sorted member
        rcases mem_cons.mp member with rfl | later
        · exact le_rfl
        · exact rel_of_pairwise_cons sorted later

end Loop

namespace Topology

variable {topology : Topology v n} {writer consumer : Fin n}

theorem claimOutputs_apply (writers : Fin v → Option (Fin n)) (operation : Fin n) (output : Fin v) :
    topology.claimOutputs writers operation output =
      (writers output).or
        (if output ∈ topology.outputs operation then some operation else none) := by
  unfold claimOutputs
  induction topology.outputs operation generalizing writers with
  | nil => simp
  | cons first outputs ih =>
    rw [foldl_cons, ih]
    by_cases same : output = first
    · subst same
      cases claimed : writers output <;> simp [claimed]
    · split <;> simp [same]

theorem foldl_claimOutputs {operations : List (Fin n)} {writers : Fin v → Option (Fin n)}
    (output : Fin v) :
    operations.foldl topology.claimOutputs writers output =
      (writers output).or (operations.find? (output ∈ topology.outputs ·)) := by
  induction operations generalizing writers with
  | nil => simp
  | cons operation operations ih =>
    rw [foldl_cons, ih, claimOutputs_apply]
    by_cases written : output ∈ topology.outputs operation <;> simp [written]

theorem writers_eq_some_iff {output : Fin v} :
    topology.writers output = some writer ↔ topology.IsFirstWriter output writer := by
  rw [writers, foldl_claimOutputs, Option.none_or, find?_eq_some_iff_getElem]
  simp only [decide_eq_true_eq, length_finRange, getElem_finRange, Bool.not_eq_true',
    decide_eq_false_iff_not]
  refine and_congr_right fun _ =>
    ⟨?_, fun none => ⟨writer, writer.2, rfl, fun _ less => none _ less⟩⟩
  rintro ⟨_, _, rfl, none⟩ earlier less
  exact none earlier less

theorem mem_edges : (writer, consumer) ∈ topology.edges ↔ topology.Feeds writer consumer := by
  simp only [edges, dependencyWriters, mem_flatMap, mem_finRange, true_and, mem_map,
    Finset.mem_sort, mem_toFinset, mem_filterMap, Option.filter_eq_some_iff, writers_eq_some_iff,
    Prod.mk.injEq, decide_eq_true_eq]
  constructor
  · rintro ⟨_, _, ⟨dependency, reads, first, other⟩, rfl, rfl⟩
    exact ⟨other, dependency, reads, first⟩
  · rintro ⟨other, dependency, reads, first⟩
    exact ⟨_, _, ⟨dependency, reads, first, other⟩, rfl, rfl⟩

/-- The operations that feed an operation. -/
def incoming (topology : Topology v n) : Fin n → List (Fin n) :=
  bucket (topology.edges.map Prod.swap)

theorem mem_incoming : writer ∈ topology.incoming consumer ↔ topology.Feeds writer consumer := by
  simp [incoming, mem_bucket, mem_edges]

theorem count_outgoing (writer consumer : Fin n) :
    (topology.outgoing writer).count consumer = (topology.incoming consumer).count writer := by
  rw [outgoing, row_fill, incoming, count_bucket, count_bucket]
  exact (count_map_of_injective _ _ Prod.swap_injective (writer, consumer)).symm

theorem start_invariant (topology : Topology v n) :
    topology.start.Invariant topology.incoming [] where
  sorted := (sortedLT_finRange _).sortedLE.pairwise.filter _
  distinct := (nodup_finRange _).filter _
  mem_ready := by simp [start]
  nodup := nodup_nil
  emitted_iff := by simp [start]
  indegree_eq := by simp [start, counts_eq, incoming]
  served := by simp [start]

/-- The initial order lists every operation.  First come those that no cycle blocks: each after
the other first writers of its dependencies, in the least such order; the blocked ones follow
in ascending order. -/
theorem initial_operation_order (topology : Topology v n) :
    ∃ ordered acyclic, topology.initialOperationOrder = some (ordered, acyclic) ∧
      ordered.Perm (List.finRange n) ∧
      acyclic = Set.ncard { operation | ¬ Blocked topology.Feeds operation } ∧
      (∀ operation, operation ∈ ordered.take acyclic ↔ ¬ Blocked topology.Feeds operation) ∧
      Respects topology.Feeds (ordered.take acyclic) ∧
      (∀ other, other.Perm (ordered.take acyclic) → Respects topology.Feeds other →
        ¬ List.Lex (· < ·) other (ordered.take acyclic)) ∧
      (ordered.drop acyclic).SortedLT := by
  have enough : n < n + 1 + topology.start.ordered.length := by omega
  rcases topology.start_invariant.drain count_outgoing enough with
    ⟨order, final, drained, finished, final_eq, greedy⟩
  have feeds : (fun writer consumer => writer ∈ topology.incoming consumer) = topology.Feeds := by
    ext
    exact mem_incoming
  rw [feeds] at greedy
  change final.ordered = order at final_eq
  let blocked := (List.finRange n).filter fun operation =>
    !final.emitted operation
  have sorted : blocked.SortedLT :=
    ((sortedLT_finRange _).pairwise.filter _).sortedLT
  have mem_blocked : ∀ operation, operation ∈ blocked ↔ operation ∉ order := by
    simp [blocked, ← final_eq, ← finished.emitted_iff]
  refine ⟨order ++ blocked, order.length, ?_, ?_, ?_, ?_⟩
  · simp [initialOperationOrder, drained, final_eq, blocked]
  · refine (perm_ext_iff_of_nodup ?_ (nodup_finRange _)).mpr fun operation => ?_
    · exact greedy.nodup.append sorted.nodup fun _ member left => (mem_blocked _).mp left member
    · simp [mem_blocked, Classical.em]
  · rw [← toFinset_card_of_nodup greedy.nodup, ← Set.ncard_coe_finset]
    congr 1
    ext operation
    simp [greedy.mem_iff]
  · rw [take_left, drop_left]
    refine ⟨fun _ => greedy.mem_iff, greedy.respects, fun other same respects => ?_, sorted⟩
    exact greedy.not_lex same (same.nodup_iff.mpr greedy.nodup) respects

end Topology

end BoonCircuit.CompilerKernel
