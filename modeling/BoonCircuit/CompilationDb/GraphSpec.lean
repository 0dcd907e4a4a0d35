import BoonCircuit.CompilationDb.Graph

/-!
# What the graph methods change

A graph is read through its identities, memos, recorded dependencies and recorded
dependents.  The dependents are kept as the converse of the dependencies, so a
reverse cone is what reaches its roots through recorded dependencies.
-/

namespace BoonCircuit.CompilationDb.RequestEvaluatorGraph

open Lib Checks Std.ExtTreeSet Worklist List RequestEvaluatorGraph

variable {φ : Type} [Fingerprint φ]

/-- The recorded dependencies of a node. -/
def recorded (graph : RequestEvaluatorGraph φ) (node : RequestNodeId) : List RequestNodeId :=
  (graph.dependencies node).getD []

variable {graph next : RequestEvaluatorGraph φ} {node other dependent target : RequestNodeId}
  {update : RequestNode φ → RequestNode φ} {nodes dependencies : List RequestNodeId}
  {revision : Revision} {ticket : RequestEvaluationTicket φ}

theorem getElem?_updateNode :
    (graph.updateNode node update).nodes[other]? =
      if node = other then graph.nodes[other]?.map update else graph.nodes[other]? := by
  rw [updateNode]
  split <;> simp_all

theorem identity_updateNode (keeps : ∀ slot, (update slot).identity = slot.identity) :
    (graph.updateNode node update).identity = graph.identity := by
  funext other
  rw [identity, identity, getElem?_updateNode]
  split
  · cases graph.nodes[other]? <;> simp [keeps]
  · rfl

theorem memo_updateNode (keeps : ∀ slot, (update slot).memo = slot.memo) :
    (graph.updateNode node update).memo = graph.memo := by
  funext other
  rw [memo, memo, getElem?_updateNode]
  split
  · cases graph.nodes[other]? <;> simp [keeps]
  · rfl

theorem recorded_updateNode (keeps : ∀ slot, (update slot).dependencies = slot.dependencies) :
    (graph.updateNode node update).recorded = graph.recorded := by
  funext other
  rw [recorded, recorded, dependencies, dependencies, getElem?_updateNode]
  split
  · cases graph.nodes[other]? <;> simp [keeps]
  · rfl

theorem dependents_updateNode
    (keeps : ∀ slot, (update slot).reverseDependents = slot.reverseDependents) :
    (graph.updateNode node update).dependents = graph.dependents := by
  funext other
  rw [dependents, dependents, getElem?_updateNode]
  split
  · cases graph.nodes[other]? <;> simp [keeps]
  · rfl

/-- Two graphs that differ in states, active computations and counters only. -/
structure SameRecords (graph next : RequestEvaluatorGraph φ) : Prop where
  identities : next.identities = graph.identities
  identity : next.identity = graph.identity
  memo : next.memo = graph.memo
  recorded : next.recorded = graph.recorded
  dependents : next.dependents = graph.dependents

theorem SameRecords.refl : SameRecords graph graph :=
  ⟨rfl, rfl, rfl, rfl, rfl⟩

variable {first second third : RequestEvaluatorGraph φ} {reason : RequestAbortReason}
  {resultFingerprint : φ} {changed : Bool} {memo : RequestMemo φ}

theorem SameRecords.trans (front : SameRecords first second) (back : SameRecords second third) :
    SameRecords first third where
  identities := back.identities.trans front.identities
  identity := back.identity.trans front.identity
  memo := back.memo.trans front.memo
  recorded := back.recorded.trans front.recorded
  dependents := back.dependents.trans front.dependents

theorem sameRecords_setState (state : RequestNode φ → RequestNodeState) :
    SameRecords graph (graph.updateNode node fun slot => { slot with state := state slot }) where
  identities := rfl
  identity := identity_updateNode fun _ => rfl
  memo := memo_updateNode fun _ => rfl
  recorded := recorded_updateNode fun _ => rfl
  dependents := dependents_updateNode fun _ => rfl

theorem sameRecords_foldl_supersede :
    ∀ {graph : RequestEvaluatorGraph φ}, SameRecords graph
      (nodes.foldl (fun graph node => graph.updateNode node supersede) graph) := by
  induction nodes with
  | nil => exact .refl
  | cons node nodes ih => exact (sameRecords_setState _).trans ih

theorem revision_foldl_updateNode :
    (nodes.foldl (fun graph node => graph.updateNode node update) graph).revision =
      graph.revision := by
  apply Checks.foldl_view revision
  exact fun _ _ => rfl

theorem sameRecords_advanceTo :
    SameRecords graph (graph.advanceTo revision).2 ∧
      graph.revision ≤ (graph.advanceTo revision).2.revision := by
  rw [advanceTo]
  split
  case isTrue => exact ⟨.refl, le_rfl⟩
  case isFalse newer =>
    have later : graph.revision ≤ revision := le_of_lt (not_le.mp newer)
    split
    case isTrue => exact ⟨⟨rfl, rfl, rfl, rfl, rfl⟩, later⟩
    case isFalse =>
      have moved : SameRecords graph { graph with
          revision := revision, generation := graph.generation + 1, active := [] } :=
        ⟨rfl, rfl, rfl, rfl, rfl⟩
      refine ⟨moved.trans sameRecords_foldl_supersede, ?_⟩
      rw [revision_foldl_updateNode]
      exact later

/-- Every recorded dependency knows its dependent, and no one else does. -/
def Linked (graph : RequestEvaluatorGraph φ) : Prop :=
  ∀ dependency node, dependency ∈ graph.recorded node ↔ node ∈ graph.dependents dependency

theorem SameRecords.linked
    (same : SameRecords graph next) (linked : Linked graph) : Linked next := by
  unfold Linked
  rw [same.recorded, same.dependents]
  exact linked

theorem dependents_dropDependent :
    other ∈ (dropDependent dependent graph node).dependents target ↔
      other ∈ graph.dependents target ∧ ¬ (other = dependent ∧ target = node) := by
  rw [dropDependent, dependents, dependents, getElem?_updateNode]
  by_cases same : node = target
  · subst same
    cases graph.nodes[node]? with
    | none => simp
    | some =>
      simp only [if_true, Option.map_some, Option.getD_some, mem_toList, mem_erase,
        Std.LawfulEqOrd.compare_eq_iff_eq, ne_eq, and_true, eq_comm (a := dependent)]
      exact and_comm
  · simp [same, Ne.symm same]

theorem dependents_foldl_dropDependent :
    ∀ {graph : RequestEvaluatorGraph φ},
      other ∈ (nodes.foldl (dropDependent dependent) graph).dependents target ↔
        other ∈ graph.dependents target ∧ ¬ (other = dependent ∧ target ∈ nodes) := by
  induction nodes with
  | nil => simp
  | cons node nodes ih =>
    intro graph
    rw [foldl_cons, ih, dependents_dropDependent, mem_cons]
    tauto

theorem dependents_addDependent (present : node < graph.nodes.length) :
    other ∈ (addDependent dependent graph node).dependents target ↔
      other ∈ graph.dependents target ∨ (other = dependent ∧ target = node) := by
  rw [addDependent, dependents, dependents, getElem?_updateNode]
  by_cases same : node = target
  · subst same
    rw [getElem?_eq_getElem present]
    simp only [if_true, Option.map_some, Option.getD_some, mem_toList, mem_insert,
      Std.LawfulEqOrd.compare_eq_iff_eq, and_true, eq_comm (a := dependent), or_comm]
  · simp [same, Ne.symm same]

theorem length_updateNode : (graph.updateNode node update).nodes.length = graph.nodes.length :=
  length_modify ..

theorem dependents_foldl_addDependent :
    ∀ {graph : RequestEvaluatorGraph φ}, (∀ node ∈ nodes, node < graph.nodes.length) →
      (other ∈ (nodes.foldl (addDependent dependent) graph).dependents target ↔
        other ∈ graph.dependents target ∨ (other = dependent ∧ target ∈ nodes)) := by
  induction nodes with
  | nil => simp
  | cons node nodes ih =>
    intro graph present
    have rest : ∀ other ∈ nodes, other < (addDependent dependent graph node).nodes.length := by
      intro other member
      rw [addDependent, length_updateNode]
      exact present other (mem_cons_of_mem _ member)
    rw [foldl_cons, ih rest, dependents_addDependent (present node mem_cons_self), mem_cons]
    tauto

/-- What relinking dependents never touches. -/
structure SameNodes (graph next : RequestEvaluatorGraph φ) : Prop where
  revision : next.revision = graph.revision
  identities : next.identities = graph.identities
  identity : next.identity = graph.identity
  memo : next.memo = graph.memo
  length : next.nodes.length = graph.nodes.length

theorem SameNodes.trans
    (front : SameNodes first second) (back : SameNodes second third) : SameNodes first third where
  revision := back.revision.trans front.revision
  identities := back.identities.trans front.identities
  identity := back.identity.trans front.identity
  memo := back.memo.trans front.memo
  length := back.length.trans front.length

theorem sameNodes_updateNode (identityKept : ∀ slot, (update slot).identity = slot.identity)
    (memoKept : ∀ slot, (update slot).memo = slot.memo) :
    SameNodes graph (graph.updateNode node update) where
  revision := rfl
  identities := rfl
  identity := identity_updateNode identityKept
  memo := memo_updateNode memoKept
  length := length_modify ..

theorem sameNodes_foldl_dropDependent :
    ∀ {graph : RequestEvaluatorGraph φ},
      SameNodes graph (nodes.foldl (dropDependent dependent) graph) ∧
        (nodes.foldl (dropDependent dependent) graph).recorded = graph.recorded := by
  induction nodes with
  | nil => exact ⟨⟨rfl, rfl, rfl, rfl, rfl⟩, rfl⟩
  | cons node nodes ih =>
    intro graph
    have step : SameNodes graph (dropDependent dependent graph node) :=
      sameNodes_updateNode (fun _ => rfl) fun _ => rfl
    exact ⟨step.trans ih.1, ih.2.trans (recorded_updateNode fun _ => rfl)⟩

theorem sameNodes_foldl_addDependent :
    ∀ {graph : RequestEvaluatorGraph φ},
      SameNodes graph (nodes.foldl (addDependent dependent) graph) ∧
        (nodes.foldl (addDependent dependent) graph).recorded = graph.recorded := by
  induction nodes with
  | nil => exact ⟨⟨rfl, rfl, rfl, rfl, rfl⟩, rfl⟩
  | cons node nodes ih =>
    intro graph
    have step : SameNodes graph (addDependent dependent graph node) :=
      sameNodes_updateNode (fun _ => rfl) fun _ => rfl
    exact ⟨step.trans ih.1, ih.2.trans (recorded_updateNode fun _ => rfl)⟩

theorem recorded_setDependencies :
    (graph.updateNode node fun slot => { slot with dependencies := dependencies }).recorded other =
      if node = other ∧ node < graph.nodes.length then dependencies else graph.recorded other := by
  rw [recorded, recorded, RequestEvaluatorGraph.dependencies, RequestEvaluatorGraph.dependencies,
    getElem?_updateNode]
  by_cases same : node = other
  · subst same
    by_cases present : node < graph.nodes.length <;> simp [present]
  · simp [same]

theorem sameNodes_unlink : SameNodes graph (graph.unlink node) := by
  apply SameNodes.trans _ sameNodes_foldl_dropDependent.1
  exact sameNodes_updateNode (fun _ => rfl) fun _ => rfl

theorem recorded_unlink :
    (graph.unlink node).recorded other = if node = other then [] else graph.recorded other := by
  rw [unlink, sameNodes_foldl_dropDependent.2, recorded_setDependencies]
  by_cases same : node = other
  · subst same
    by_cases present : node < graph.nodes.length
    · simp [present]
    · simp [present, recorded, dependencies]
  · simp [same]

theorem dependents_unlink :
    other ∈ (graph.unlink node).dependents target ↔
      other ∈ graph.dependents target ∧ ¬ (other = node ∧ target ∈ graph.recorded node) := by
  have kept : (graph.updateNode node fun slot =>
      { slot with dependencies := [] }).dependents = graph.dependents :=
    dependents_updateNode fun _ => rfl
  rw [unlink, dependents_foldl_dropDependent, kept]
  rfl

theorem Linked.unlink (linked : Linked graph) : Linked (graph.unlink node) := by
  intro dependency other
  rw [recorded_unlink, dependents_unlink, ← linked]
  by_cases same : node = other
  · subst same
    simp
  · simp [same, Ne.symm same]

theorem recorded_replaceDependencies (present : node < graph.nodes.length) :
    (graph.replaceDependencies node dependencies).recorded other =
      if node = other then dependencies else graph.recorded other := by
  rw [replaceDependencies, recorded_setDependencies, sameNodes_foldl_addDependent.1.length,
    sameNodes_unlink.length, sameNodes_foldl_addDependent.2, recorded_unlink]
  by_cases same : node = other
  · rw [if_pos ⟨same, present⟩, if_pos same]
  · simp [same]

theorem sameNodes_replaceDependencies :
    SameNodes graph (graph.replaceDependencies node dependencies) := by
  apply (sameNodes_unlink.trans sameNodes_foldl_addDependent.1).trans
  exact sameNodes_updateNode (fun _ => rfl) fun _ => rfl

theorem Linked.replaceDependencies (linked : Linked graph) (present : node < graph.nodes.length)
    (known : ∀ dependency ∈ dependencies, dependency < graph.nodes.length) :
    Linked (graph.replaceDependencies node dependencies) := by
  intro dependency other
  have kept : ((dependencies.foldl (addDependent node) (graph.unlink node)).updateNode node
      fun slot => { slot with dependencies := dependencies }).dependents =
        (dependencies.foldl (addDependent node) (graph.unlink node)).dependents :=
    dependents_updateNode fun _ => rfl
  have room : ∀ dependency ∈ dependencies, dependency < (graph.unlink node).nodes.length := by
    rw [sameNodes_unlink.length]
    exact known
  rw [recorded_replaceDependencies present, RequestEvaluatorGraph.replaceDependencies, kept,
    dependents_foldl_addDependent room, dependents_unlink, ← linked]
  by_cases same : node = other
  · subst same
    simp
  · simp [same, Ne.symm same]

/-- A removed node has no memo. -/
def RequestNode.Cleared (slot : RequestNode φ) : Prop :=
  slot.state = .removed → slot.memo = none

/-- Every removed node has lost its memo. -/
def Cleared (graph : RequestEvaluatorGraph φ) : Prop :=
  ∀ (node : RequestNodeId) slot, graph.nodes[node]? = some slot → RequestNode.Cleared slot

theorem Cleared.updateNode (cleared : Cleared graph)
    (keeps : ∀ slot, RequestNode.Cleared slot → RequestNode.Cleared (update slot)) :
    Cleared (graph.updateNode node update) := by
  intro other slot found
  rw [getElem?_updateNode] at found
  split at found
  case isTrue =>
    rcases Option.map_eq_some_iff.mp found with ⟨before, present, rfl⟩
    exact keeps before (cleared other before present)
  case isFalse => exact cleared other slot found

theorem Cleared.foldl_updateNode
    (keeps : ∀ slot, RequestNode.Cleared slot → RequestNode.Cleared (update slot)) :
    ∀ {graph : RequestEvaluatorGraph φ}, Cleared graph →
      Cleared (nodes.foldl (fun graph node => graph.updateNode node update) graph) := by
  induction nodes with
  | nil => exact id
  | cons node nodes ih => exact fun cleared => ih (cleared.updateNode keeps)

theorem Cleared.unlink (cleared : Cleared graph) : Cleared (graph.unlink node) := by
  apply Cleared.foldl_updateNode
  · exact fun _ kept => kept
  · apply cleared.updateNode
    exact fun _ kept => kept

theorem Cleared.replaceDependencies (cleared : Cleared graph) :
    Cleared (graph.replaceDependencies node dependencies) := by
  apply Cleared.updateNode
  · apply Cleared.foldl_updateNode
    · exact fun _ kept => kept
    · exact cleared.unlink
  · exact fun _ kept => kept

theorem Cleared.advanceTo (cleared : Cleared graph) : Cleared (graph.advanceTo revision).2 := by
  rw [RequestEvaluatorGraph.advanceTo]
  split
  · exact cleared
  · split
    · exact cleared
    · apply Cleared.foldl_updateNode
      · intro slot _ removed
        unfold supersede at removed
        split at removed <;> cases removed
      · exact cleared

theorem memo_removeNode (cleared : Cleared graph) :
    (graph.removeNode node).memo other = if node = other then none else graph.memo other := by
  rw [removeNode, memo, getElem?_updateNode]
  by_cases same : node = other
  · subst same
    rw [if_pos rfl, if_pos rfl]
    cases found : (graph.unlink node).nodes[node]? with
    | none => rfl
    | some slot =>
      rw [Option.map_some]
      split
      case isTrue removed => exact cleared.unlink node slot found removed
      case isFalse => rfl
  · rw [if_neg same, if_neg same, ← congrFun sameNodes_unlink.memo other]
    rfl

theorem removeNode_unlink : (graph.removeNode node).identity = (graph.unlink node).identity ∧
    (graph.removeNode node).recorded = (graph.unlink node).recorded ∧
    (graph.removeNode node).dependents = (graph.unlink node).dependents := by
  refine ⟨identity_updateNode ?_, recorded_updateNode ?_, dependents_updateNode ?_⟩ <;>
    exact fun slot => by split <;> rfl

theorem removeNode_recorded : (graph.removeNode node).recorded other =
    if node = other then [] else graph.recorded other := by
  rw [removeNode_unlink.2.1, recorded_unlink]

theorem identity_removeNode : (graph.removeNode node).identity = graph.identity :=
  removeNode_unlink.1.trans sameNodes_unlink.identity

theorem Cleared.removeNode (cleared : Cleared graph) : Cleared (graph.removeNode node) := by
  apply cleared.unlink.updateNode
  intro slot kept
  split
  · exact kept
  · exact fun _ => rfl

theorem removeNodes_eq_ok
    (removed : graph.removeNodes nodes = .ok next) : next = nodes.foldl removeNode graph := by
  simp only [removeNodes, check_bind_eq_ok_iff, pure_eq_ok_iff] at removed
  exact removed.2.symm

theorem lt_length_of_identity {identity : RequestNodeIdentity φ}
    (found : graph.identity node = some identity) : node < graph.nodes.length := by
  rcases Option.map_eq_some_iff.mp found with ⟨_, present, _⟩
  exact (List.getElem?_eq_some_iff.mp present).1

section Consistent

/-- The index finds exactly the nodes, dependents are the converse of dependencies, and
removed nodes are cleared. -/
structure Consistent (graph : RequestEvaluatorGraph φ) : Prop where
  indexed : ∀ identity node,
    graph.identities[identity]? = some node ↔ graph.identity node = some identity
  linked : Linked graph
  cleared : Cleared graph

theorem consistent_new : Consistent (new revision : RequestEvaluatorGraph φ) where
  indexed := by simp [new, identity]
  linked := by simp [Linked, new, recorded, dependencies, dependents]
  cleared := by simp [Cleared, new]

variable {graph : RequestEvaluatorGraph φ}

theorem Consistent.sameRecords (consistent : Consistent graph)
    (same : SameRecords graph next) (cleared : Cleared next) : Consistent next where
  indexed := by
    rw [same.identities, same.identity]
    exact consistent.indexed
  linked := same.linked consistent.linked
  cleared := cleared

theorem Consistent.removeNode (consistent : Consistent graph) (node : RequestNodeId) :
    Consistent (graph.removeNode node) := by
  constructor
  case indexed =>
    have identities_eq : (graph.removeNode node).identities = graph.identities :=
      sameNodes_unlink.identities
    rw [identities_eq, identity_removeNode]
    exact consistent.indexed
  case linked =>
    unfold Linked
    rw [removeNode_unlink.2.1, removeNode_unlink.2.2]
    exact consistent.linked.unlink
  case cleared => exact consistent.cleared.removeNode

/-- What is left of a consistent graph after some nodes have been removed. -/
structure RemovedFrom (graph : RequestEvaluatorGraph φ) (nodes : List RequestNodeId)
    (next : RequestEvaluatorGraph φ) : Prop where
  consistent : Consistent next
  revision : next.revision = graph.revision
  identity : next.identity = graph.identity
  memo : ∀ node, next.memo node = if node ∈ nodes then none else graph.memo node
  recorded : ∀ node, next.recorded node = if node ∈ nodes then [] else graph.recorded node

theorem Consistent.foldl_removeNode (consistent : Consistent graph) :
    RemovedFrom graph nodes (nodes.foldl RequestEvaluatorGraph.removeNode graph) := by
  induction nodes generalizing graph with
  | nil => exact ⟨consistent, rfl, rfl, by simp, by simp⟩
  | cons first nodes ih =>
    have rest := ih (consistent.removeNode first)
    constructor
    case consistent => exact rest.consistent
    case revision => exact rest.revision.trans sameNodes_unlink.revision
    case identity => exact rest.identity.trans identity_removeNode
    case memo =>
      intro node
      rw [foldl_cons, rest.memo, memo_removeNode consistent.cleared]
      by_cases later : node ∈ nodes <;> simp [later, eq_comm]
    case recorded =>
      intro node
      rw [foldl_cons, rest.recorded, removeNode_recorded]
      by_cases later : node ∈ nodes <;> simp [later, eq_comm]

/-- A graph in which one identity has a node, with the records of another graph. -/
structure Registers (graph : RequestEvaluatorGraph φ) (identity : RequestNodeIdentity φ)
    (node : RequestNodeId) (next : RequestEvaluatorGraph φ) : Prop where
  consistent : Consistent next
  found : next.identity node = some identity
  kept : ∀ other old, graph.identity other = some old → next.identity other = some old
  revision : next.revision = graph.revision
  memo : next.memo = graph.memo
  recorded : next.recorded = graph.recorded

/-- A node that nothing is known about. -/
def vacantNode (identity : RequestNodeIdentity φ) : RequestNode φ :=
  ⟨identity, .vacant, none, [], ∅⟩

/-- A node at the end of the graph. -/
def appendNode (graph : RequestEvaluatorGraph φ) (identity : RequestNodeIdentity φ) :
    RequestEvaluatorGraph φ :=
  { graph with
    identities := graph.identities.insert identity graph.nodes.length
    nodes := graph.nodes ++ [{
      identity := identity
      state := .vacant
      memo := none
      dependencies := []
      reverseDependents := ∅ }] }

variable {identity : RequestNodeIdentity φ}

theorem Consistent.registers_appendNode
    (consistent : Consistent graph) (fresh : graph.identities[identity]? = none) :
    Registers graph identity graph.nodes.length (graph.appendNode identity) := by
  have lookup : ∀ node, (graph.appendNode identity).nodes[node]? =
      if node = graph.nodes.length then some (vacantNode identity) else graph.nodes[node]? := by
    intro node
    rw [appendNode]
    grind [vacantNode]
  have outside : graph.nodes[graph.nodes.length]? = none := getElem?_eq_none le_rfl
  have identity_eq : ∀ node, (graph.appendNode identity).identity node =
      if node = graph.nodes.length then some identity else graph.identity node := by
    intro node
    rw [RequestEvaluatorGraph.identity, lookup]
    split <;> rfl
  have kept {β : Type} (view : Option (RequestNode φ) → β)
      (vacant : view (some (vacantNode identity)) = view none) (node : RequestNodeId) :
      view (graph.appendNode identity).nodes[node]? = view graph.nodes[node]? := by
    rw [lookup]
    split
    case isTrue last => rw [last, outside, vacant]
    case isFalse => rfl
  have recorded_eq : (graph.appendNode identity).recorded = graph.recorded :=
    funext (kept (fun slot => (slot.map RequestNode.dependencies).getD []) rfl)
  have dependents_eq : (graph.appendNode identity).dependents = graph.dependents :=
    funext (kept (fun slot => (slot.map (RequestNode.reverseDependents · |>.toList)).getD [])
      (by simp [vacantNode]))
  constructor
  case consistent =>
    constructor
    case indexed =>
      intro other node
      change (graph.identities.insert identity graph.nodes.length)[other]? = some node ↔ _
      rw [BTreeMap.getElem?_insert, identity_eq]
      by_cases same : identity = other
      · subst same
        rw [if_pos rfl]
        split
        case isTrue last => simp [last]
        case isFalse old =>
          have unknown : graph.identity node ≠ some identity := by
            rw [ne_eq, ← consistent.indexed, fresh]
            simp
          simp [unknown, Ne.symm old]
      · rw [if_neg same]
        split
        case isTrue last =>
          rw [consistent.indexed, RequestEvaluatorGraph.identity, last]
          simp [same]
        case isFalse => exact consistent.indexed other node
    case linked =>
      unfold Linked
      rw [recorded_eq, dependents_eq]
      exact consistent.linked
    case cleared =>
      intro node slot found
      rw [lookup] at found
      split at found
      · cases found
        exact fun _ => rfl
      · exact consistent.cleared node slot found
  case found => rw [identity_eq, if_pos rfl]
  case kept =>
    intro other old found
    rw [identity_eq, if_neg (Nat.ne_of_lt (lt_length_of_identity found))]
    exact found
  case revision => rfl
  case memo => exact funext (kept (·.bind RequestNode.memo) rfl)
  case recorded => exact recorded_eq

theorem Consistent.register (consistent : Consistent graph)
    (registered : graph.register identity = .ok (node, next)) :
    Registers graph identity node next := by
  rw [RequestEvaluatorGraph.register] at registered
  split at registered
  case h_1 known found =>
    cases registered
    have same : SameRecords graph (graph.updateNode node fun slot =>
        if slot.state = .removed then { slot with state := .vacant } else slot) := by
      refine ⟨rfl, identity_updateNode ?_, memo_updateNode ?_, recorded_updateNode ?_,
        dependents_updateNode ?_⟩ <;> exact fun slot => by split <;> rfl
    have cleared : Cleared (graph.updateNode node fun slot =>
        if slot.state = .removed then { slot with state := .vacant } else slot) := by
      apply consistent.cleared.updateNode
      intro slot kept
      split
      · exact fun removed => by cases removed
      · exact kept
    constructor
    case consistent => exact consistent.sameRecords same cleared
    case found => rw [same.identity, ← consistent.indexed, found]
    case kept =>
      rw [same.identity]
      exact fun _ _ => id
    case revision => rfl
    case memo => exact same.memo
    case recorded => exact same.recorded
  case h_2 fresh =>
    split at registered
    case isTrue => cases registered
    case isFalse =>
      cases registered
      exact consistent.registers_appendNode fresh

end Consistent

theorem exists_memo_of_isCurrent (current : graph.isCurrent node = true) :
    ∃ memo, graph.memo node = some memo ∧ memo.verifiedAt = graph.revision := by
  rw [isCurrent, Option.any_eq_true] at current
  rcases current with ⟨_, present, published⟩
  rw [Bool.and_eq_true, Option.any_eq_true] at published
  rcases published with ⟨_, memo, memo_eq, verified⟩
  refine ⟨memo, ?_, of_decide_eq_true verified⟩
  rw [RequestEvaluatorGraph.memo, present]
  exact memo_eq

theorem exists_memo_of_unchangedSince (unchanged : graph.unchangedSince revision node = true) :
    ∃ memo, graph.memo node = some memo ∧ memo.verifiedAt = graph.revision ∧
      memo.changedAt ≤ revision := by
  rw [unchangedSince, Option.any_eq_true] at unchanged
  rcases unchanged with ⟨memo, memo_eq, verified⟩
  rw [Bool.and_eq_true, decide_eq_true_eq, decide_eq_true_eq] at verified
  exact ⟨memo, memo_eq, verified⟩

/-- A request that was verified at this revision, with the same input. -/
def Verified (graph : RequestEvaluatorGraph φ) (node : RequestNodeId) (inputFingerprint : φ) :
    Prop :=
  ∃ memo, graph.memo node = some memo ∧ memo.verifiedAt = graph.revision ∧
    memo.inputFingerprint = inputFingerprint

/-- A request whose input is the same and whose dependencies are verified and unchanged. -/
def Green (graph : RequestEvaluatorGraph φ) (node : RequestNodeId) (inputFingerprint : φ) : Prop :=
  ∃ memo, graph.memo node = some memo ∧ memo.inputFingerprint = inputFingerprint ∧
    ∀ dependency ∈ graph.recorded node, ∃ other, graph.memo dependency = some other ∧
      other.verifiedAt = graph.revision ∧ other.changedAt ≤ memo.verifiedAt

/-- How a request can start. -/
inductive Starts (graph : RequestEvaluatorGraph φ) (node : RequestNodeId) (inputFingerprint : φ) :
    RequestStart φ → RequestEvaluatorGraph φ → Prop
  | verified (verified : Verified graph node inputFingerprint) :
      Starts graph node inputFingerprint .reused graph
  | green (green : Green graph node inputFingerprint) :
      Starts graph node inputFingerprint .reused (graph.updateNode node (verifyNode graph.revision))
  | execute (ticket : RequestEvaluationTicket φ) (next : RequestEvaluatorGraph φ)
      (node_eq : ticket.node = node) (revision_eq : ticket.revision = graph.revision)
      (input_eq : ticket.inputFingerprint = inputFingerprint)
      (dependencies_eq : ticket.dependencies = []) (same : SameRecords graph next)
      (cleared : Cleared graph → Cleared next) (kept : next.revision = graph.revision) :
      Starts graph node inputFingerprint (.execute ticket) next

theorem starts_of_begin {inputFingerprint : φ} {start : RequestStart φ}
    (begun : graph.begin node inputFingerprint = .ok (start, next)) :
    Starts graph node inputFingerprint start next := by
  rw [begin, bind_eq_ok_iff] at begun
  rcases begun with ⟨slot, present, begun⟩
  rw [okOr_eq_ok_iff] at present
  have memo_eq : graph.memo node = slot.memo := by
    rw [memo, present]
    rfl
  split at begun
  case h_1 => cases begun
  case h_2 => cases begun
  case h_3 =>
    split at begun
    case h_1 memo verified =>
      rw [check_bind_eq_ok_iff, reject_eq_ok_iff, not_not] at begun
      rcases begun with ⟨input_eq, begun⟩
      cases begun
      rw [Option.filter_eq_some_iff, decide_eq_true_eq] at verified
      exact .verified ⟨memo, memo_eq.trans verified.1, verified.2, input_eq⟩
    case h_2 =>
      split at begun
      case isTrue fresh =>
        cases begun
        rw [green, Option.any_eq_true] at fresh
        rcases fresh with ⟨memo, found, unchanged⟩
        rw [Bool.and_eq_true, decide_eq_true_eq, all_eq_true] at unchanged
        refine .green ⟨memo, memo_eq.trans found, unchanged.1, fun dependency recorded => ?_⟩
        rw [RequestEvaluatorGraph.recorded, dependencies, present] at recorded
        exact exists_memo_of_unchangedSince (unchanged.2 dependency recorded)
      case isFalse =>
        cases begun
        have same : SameRecords graph (graph.updateNode node fun slot =>
            { slot with
              state := .computing graph.revision graph.generation graph.active.length }) :=
          sameRecords_setState _
        refine .execute _ _ rfl rfl rfl rfl { same with } (fun cleared => ?_) rfl
        exact cleared.updateNode fun _ _ removed => by cases removed

theorem revision_eq_of_validateTicket (valid : graph.validateTicket ticket = .ok ()) :
    ticket.revision = graph.revision := by
  rw [validateTicket, check_bind_eq_ok_iff, reject_eq_ok_iff, not_or, not_not] at valid
  exact valid.1.1

theorem require_eq_ok {next : RequestEvaluationTicket φ} {dependency : RequestNodeId}
    (required : graph.require ticket dependency = .ok next) :
    ticket.revision = graph.revision ∧ graph.isCurrent dependency = true ∧
      next = { ticket with dependencies := ticket.dependencies ++ [dependency] } := by
  rw [require, check_bind_eq_ok_iff, check_bind_eq_ok_iff, bind_eq_ok_iff] at required
  rcases required with ⟨valid, _, _, _, required⟩
  split at required
  case h_1 => cases required
  case h_2 =>
    rw [check_bind_eq_ok_iff, reject_eq_ok_iff, Bool.not_eq_false, pure_eq_ok_iff] at required
    exact ⟨revision_eq_of_validateTicket valid, required.1, required.2.symm⟩

theorem abortedState_ne_removed : graph.abortedState ticket reason ≠ .removed := by
  cases reason with
  | failed => simp [abortedState]
  | canceled =>
    rw [abortedState]
    split <;> simp

theorem abort_eq_ok (aborted : graph.abort ticket reason = .ok next) :
    SameRecords graph next ∧ next.revision = graph.revision ∧ (Cleared graph → Cleared next) := by
  rw [abort, check_bind_eq_ok_iff, pure_eq_ok_iff] at aborted
  rcases aborted with ⟨_, rfl⟩
  have same : SameRecords graph (graph.updateNode ticket.node fun slot =>
      { slot with state := graph.abortedState ticket reason }) := sameRecords_setState _
  refine ⟨{ same with }, rfl, fun cleared => ?_⟩
  exact cleared.updateNode fun _ _ removed => absurd removed abortedState_ne_removed

theorem publishedMemo_eq_ok
    (published : graph.publishedMemo ticket resultFingerprint = .ok (changed, memo)) :
    memo.verifiedAt = graph.revision ∧ memo.inputFingerprint = ticket.inputFingerprint ∧
      memo.resultFingerprint = resultFingerprint ∧
      ((changed = true ∧ memo.changedAt = graph.revision) ∨
        ∃ old, graph.memo ticket.node = some old ∧ changed = false ∧
          old.resultFingerprint = resultFingerprint ∧ memo.changedAt = old.changedAt) := by
  rw [publishedMemo] at published
  split at published
  case h_1 old found =>
    rw [RequestMemo.publish, check_bind_eq_ok_iff, check_bind_eq_ok_iff] at published
    rcases published with ⟨_, _, published⟩
    cases published
    refine ⟨rfl, rfl, rfl, ?_⟩
    by_cases same : old.resultFingerprint = resultFingerprint
    · exact .inr ⟨old, found, by simp [same], same, by simp [same]⟩
    · exact .inl ⟨by simp [same], by simp [same]⟩
  case h_2 =>
    cases published
    exact ⟨rfl, rfl, rfl, .inl ⟨rfl, rfl⟩⟩

omit [Fingerprint φ] in
theorem mem_sortedDependencies : node ∈ ticket.sortedDependencies ↔ node ∈ ticket.dependencies := by
  rw [RequestEvaluationTicket.sortedDependencies, mem_toList, mem_ofList, List.contains_iff_mem]

/-- A publication: the memo and the dependencies of one node are replaced. -/
structure PublishedIn (graph : RequestEvaluatorGraph φ) (ticket : RequestEvaluationTicket φ)
    (memo : RequestMemo φ) (next : RequestEvaluatorGraph φ) : Prop where
  revision : next.revision = graph.revision
  identities : next.identities = graph.identities
  identity : next.identity = graph.identity
  memo : ∀ node, next.memo node = if ticket.node = node then some memo else graph.memo node
  recorded : ∀ node, next.recorded node =
    if ticket.node = node then ticket.sortedDependencies
    else graph.recorded node
  linked : Linked graph → Linked next
  cleared : Cleared graph → Cleared next

theorem lt_length_of_isCurrent
    (current : graph.isCurrent node = true) : node < graph.nodes.length := by
  rw [isCurrent, Option.any_eq_true] at current
  rcases current with ⟨_, present, _⟩
  exact (List.getElem?_eq_some_iff.mp present).1

theorem memo_setMemo (present : node < graph.nodes.length) :
    (graph.updateNode node fun slot => { slot with memo := some memo }).memo other =
      if node = other then some memo else graph.memo other := by
  rw [RequestEvaluatorGraph.memo, getElem?_updateNode]
  by_cases same : node = other
  · subst same
    simp [present]
  · rw [if_neg same, if_neg same]
    rfl

theorem computing_of_validateTicket (valid : graph.validateTicket ticket = .ok ()) :
    ∃ slot, graph.nodes[ticket.node]? = some slot ∧
      slot.state = .computing ticket.revision ticket.generation ticket.stackIndex := by
  simp only [validateTicket, check_bind_eq_ok_iff, reject_eq_ok_iff, not_not] at valid
  exact Option.map_eq_some_iff.mp valid.2.2

theorem publish_eq_ok
    (published : graph.publish ticket resultFingerprint = .ok (changed, next)) :
    ticket.revision = graph.revision ∧
      (∀ dependency ∈ ticket.dependencies, graph.isCurrent dependency = true) ∧
      ∃ memo, graph.publishedMemo ticket resultFingerprint = .ok (changed, memo) ∧
        PublishedIn graph ticket memo next := by
  rw [publish, check_bind_eq_ok_iff, check_bind_eq_ok_iff, check_bind_eq_ok_iff,
    forM_eq_ok_iff, bind_eq_ok_iff] at published
  rcases published with ⟨valid, _, current, ⟨_, memo⟩, memo_eq, finished⟩
  cases finished
  rcases computing_of_validateTicket valid with ⟨slot, found, computing⟩
  have present := (List.getElem?_eq_some_iff.mp found).1
  have currentOf : ∀ dependency ∈ ticket.dependencies, graph.isCurrent dependency = true := by
    intro dependency member
    have checked := current dependency (mem_sortedDependencies.mpr member)
    simpa [reject_eq_ok_iff] using checked
  refine ⟨revision_eq_of_validateTicket valid, currentOf, memo, memo_eq, ?_⟩
  -- The memo is stored first, then the dependencies are relinked, then the state is set.
  generalize stored_eq : (graph.updateNode ticket.node fun slot =>
    { slot with memo := some memo }) = stored
  have stored_length : stored.nodes.length = graph.nodes.length :=
    stored_eq ▸ length_updateNode
  generalize dependencies_eq : ticket.sortedDependencies = dependencies
  have known : ∀ dependency ∈ dependencies, dependency < stored.nodes.length := by
    intro dependency member
    rw [stored_length]
    rw [← dependencies_eq, mem_sortedDependencies] at member
    exact lt_length_of_isCurrent (currentOf dependency member)
  have stored_present : ticket.node < stored.nodes.length := stored_length ▸ present
  have same : SameRecords (stored.replaceDependencies ticket.node dependencies)
      ((stored.replaceDependencies ticket.node dependencies).updateNode ticket.node fun slot =>
        { slot with state := .published }) := sameRecords_setState _
  have relinked : SameNodes stored (stored.replaceDependencies ticket.node dependencies) :=
    sameNodes_replaceDependencies
  constructor
  case revision => exact relinked.revision.trans (stored_eq ▸ rfl)
  case identities => exact relinked.identities.trans (stored_eq ▸ rfl)
  case identity =>
    apply (same.identity.trans relinked.identity).trans
    rw [← stored_eq]
    exact identity_updateNode fun _ => rfl
  case memo =>
    intro node
    have kept := congrFun (same.memo.trans relinked.memo) node
    apply kept.trans
    rw [← stored_eq, memo_setMemo present]
  case recorded =>
    intro node
    apply (congrFun same.recorded node).trans
    rw [recorded_replaceDependencies stored_present, dependencies_eq, ← stored_eq]
    have kept : (graph.updateNode ticket.node fun slot =>
      { slot with memo := some memo }).recorded = graph.recorded := recorded_updateNode fun _ => rfl
    rw [kept]
  case linked =>
    intro linked
    have stored_linked : Linked stored := by
      rw [← stored_eq]
      unfold Linked
      rw [recorded_updateNode, dependents_updateNode]
      · exact linked
      · exact fun _ => rfl
      · exact fun _ => rfl
    exact same.linked (stored_linked.replaceDependencies stored_present known)
  case cleared =>
    intro cleared
    have stored_cleared : Cleared stored := by
      intro other after after_eq
      rw [← stored_eq, getElem?_updateNode] at after_eq
      split at after_eq
      case isTrue same =>
        rw [← same, found] at after_eq
        cases after_eq
        exact fun removed => by cases computing.symm.trans removed
      case isFalse => exact cleared other after after_eq
    exact stored_cleared.replaceDependencies.updateNode fun _ _ removed => by cases removed

/-- The first node depends on the second through recorded dependencies. -/
abbrev DependsOn (graph : RequestEvaluatorGraph φ) : RequestNodeId → RequestNodeId → Prop :=
  Relation.ReflTransGen fun node dependency => dependency ∈ graph.recorded node

theorem work_eq_edgeCount (roots : List RequestNodeId) :
    work graph.dependents (Finset.range graph.nodes.length) roots ∅ =
      roots.length + graph.edgeCount := by
  have everything : (Finset.range graph.nodes.length).filter (· ∉ (∅ : BTreeSet RequestNodeId)) =
      Finset.range graph.nodes.length :=
    Finset.filter_true_of_mem fun _ _ => not_mem_empty
  rw [work, everything]
  rfl

theorem Linked.mem_reverseCone (linked : Linked graph) (roots : List RequestNodeId) :
    ∃ cone, graph.reverseCone roots = some cone ∧
      ∀ node, node ∈ cone ↔ ∃ root ∈ roots, graph.DependsOn node root := by
  have dead : ∀ node, node ∉ Finset.range graph.nodes.length → graph.dependents node = [] := by
    intro node outside
    rw [Finset.mem_range, not_lt] at outside
    rw [dependents, getElem?_eq_none outside]
    rfl
  have finished := explore_isSome dead (work_eq_edgeCount roots).le
  rcases Option.isSome_iff_exists.mp finished with ⟨cone, cone_eq⟩
  refine ⟨cone, cone_eq, fun node => ?_⟩
  have converse : (fun source target => target ∈ graph.dependents source) =
      Function.swap fun node dependency => dependency ∈ graph.recorded node := by
    funext source target
    exact propext (linked source target).symm
  rw [mem_explore_iff cone_eq, Reaches, converse]
  exact exists_congr fun root => and_congr_right fun _ => Relation.reflTransGen_swap

end BoonCircuit.CompilationDb.RequestEvaluatorGraph
