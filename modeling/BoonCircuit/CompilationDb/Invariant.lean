import BoonCircuit.CompilationDb.GraphSpec
import BoonCircuit.CompilationDb.Requests

/-!
# The invariant of incremental evaluation

Every stored value comes with the answers its rule has followed.  The answers
evaluate from scratch at the revision where the value was last verified, and an
answer can only differ from what its request stores now if that request changed
later.  Registration, verification, publication and removal keep this invariant.
-/

namespace BoonCircuit.CompilationDb

open Lib TypedRequestTable RequestEvaluatorGraph BTreeMap World Option RequestNodeIdentity

section Soundness

variable {ι φ : Type} [Fingerprint φ] {families : ι → RequestFamily φ}

/-- A request has a node with a memo and a value. -/
structure World.Stores (world : World families) (family : ι) (key : (families family).Key)
    (node : RequestNodeId) (value : (families family).Value) (memo : RequestMemo φ) : Prop where
  cell : (world.tables family).cells[key]? = some ⟨node, some value⟩
  memo : world.graph.memo node = some memo

/-- Cells, keys and nodes of one table refer to each other. -/
structure Registered (graph : RequestEvaluatorGraph φ) {family : RequestFamily φ}
    (table : TypedRequestTable family) : Prop where
  identity : ∀ {key : family.Key} {node : RequestNodeId} {value : Option family.Value},
    table.cells[key]? = some ⟨node, value⟩ → graph.identity node = some (identityOf family key)
  key : ∀ {key : family.Key} {node : RequestNodeId} {value : Option family.Value},
    table.cells[key]? = some ⟨node, value⟩ → table.keysByNode[node]? = some key
  cell : ∀ {node : RequestNodeId} {key : family.Key}, table.keysByNode[node]? = some key →
    ∃ value, table.cells[key]? = some ⟨node, value⟩

/-- The names and fingerprints tell all requests apart, and output fingerprints tell
values apart. -/
structure CollisionFree (families : ι → RequestFamily φ) : Prop where
  names : ∀ first second, (families first).name = (families second).name → first = second
  keys : ∀ family first second,
    (families family).keyFingerprint first = (families family).keyFingerprint second →
      first = second
  outputs : ∀ family first second fingerprint,
    (families family).outputFingerprint first = .ok fingerprint →
    (families family).outputFingerprint second = .ok fingerprint → first = second

omit [Fingerprint φ] in
theorem CollisionFree.request_eq (free : CollisionFree families) {first second : ι}
    {firstKey : (families first).Key} {secondKey : (families second).Key}
    (same : identityOf (families first) firstKey = identityOf (families second) secondKey) :
    ∃ family_eq : first = second, family_eq ▸ firstKey = secondKey := by
  obtain rfl := free.names first second (congrArg family same)
  exact ⟨rfl, free.keys _ _ _ (congrArg keyFingerprint same)⟩

/-- The recorded dependencies of a node include a node for the answered request. -/
def Answer.RecordedIn (answer : Answer families) (graph : RequestEvaluatorGraph φ)
    (dependencies : List RequestNodeId) : Prop :=
  ∃ node ∈ dependencies, graph.identity node = some (identityOf (families answer.family) answer.key)

variable (rules : Rules families) (inputs : Revision → Inputs families)

/-- The answers that a rule followed to a stored value. -/
structure Traced (world : World families) (family : ι) (key : (families family).Key)
    (node : RequestNodeId) (value : (families family).Value) (memo : RequestMemo φ)
    (answers : List (Answer families)) : Prop where
  follows : Follows (rules family key memo.inputFingerprint) answers (.done value)
  input : memo.inputFingerprint = inputs memo.verifiedAt family key
  evaluates : ∀ answer ∈ answers,
    Evaluates rules (inputs memo.verifiedAt) answer.family answer.key answer.value
  recorded : ∀ answer ∈ answers, answer.RecordedIn world.graph (world.graph.recorded node)
  unchanged : ∀ answer ∈ answers, ∀ other stored otherMemo,
    world.Stores answer.family answer.key other stored otherMemo →
    otherMemo.changedAt ≤ memo.verifiedAt → stored = answer.value

/-- A ticket whose answers have led to what is left of its rule. -/
structure TicketOk (graph : RequestEvaluatorGraph φ) (issued : Issued families)
    (answers : List (Answer families)) : Prop where
  identity : graph.identity issued.ticket.node =
    some (identityOf (families issued.family) issued.key)
  follows : Follows (rules issued.family issued.key issued.ticket.inputFingerprint) answers
    issued.residual
  input : issued.ticket.inputFingerprint = inputs issued.ticket.revision issued.family issued.key
  evaluates : ∀ answer ∈ answers,
    Evaluates rules (inputs issued.ticket.revision) answer.family answer.key answer.value
  recorded : ∀ answer ∈ answers, answer.RecordedIn graph issued.ticket.dependencies

/-- What holds of every reached world. -/
structure World.Sound (world : World families) : Prop where
  consistent : world.graph.Consistent
  registered : ∀ family, Registered world.graph (world.tables family)
  stored : ∀ {node : RequestNodeId} {memo : RequestMemo φ}, world.graph.memo node = some memo →
    ∃ family key value, world.Stores family key node value memo ∧
      (families family).outputFingerprint value = .ok memo.resultFingerprint
  verified : ∀ {node : RequestNodeId} {memo : RequestMemo φ}, world.graph.memo node = some memo →
    memo.verifiedAt ≤ world.graph.revision
  traced : ∀ {family : ι} {key : (families family).Key} {node : RequestNodeId}
    {value : (families family).Value} {memo : RequestMemo φ},
    world.Stores family key node value memo →
      ∃ answers, Traced rules inputs world family key node value memo answers
  issued : ∀ issued ∈ world.issued, ∃ answers, TicketOk rules inputs world.graph issued answers

variable {rules inputs} {world next : World families} {family : ι} {key : (families family).Key}
  {node : RequestNodeId} {value : (families family).Value} {memo : RequestMemo φ}
  {answers : List (Answer families)} {issued : Issued families} {fingerprint : φ}
  {ticket : RequestEvaluationTicket φ} {held : Option (families family).Value} {changed : Bool}
  {answer : Answer families}

/-- A stored value is what its rule gives at the revision where it was last verified. -/
theorem Traced.evaluates_value
    (traced : Traced rules inputs world family key node value memo answers) :
    Evaluates rules (inputs memo.verifiedAt) family key value := by
  have finished := traced.follows.runs traced.evaluates .done
  rw [traced.input] at finished
  exact finished

/-- The second graph knows every node of the first. -/
def KnowsNodes (graph next : RequestEvaluatorGraph φ) : Prop :=
  ∀ node identity, graph.identity node = some identity → next.identity node = some identity

theorem knowsNodes_of_eq {graph next : RequestEvaluatorGraph φ}
    (same : next.identity = graph.identity) : KnowsNodes graph next :=
  fun _ _ found => same ▸ found

theorem Answer.RecordedIn.transfer {graph next : RequestEvaluatorGraph φ}
    {dependencies : List RequestNodeId} (knows : KnowsNodes graph next)
    (recorded : answer.RecordedIn graph dependencies) : answer.RecordedIn next dependencies := by
  rcases recorded with ⟨node, member, found⟩
  exact ⟨node, member, knows node _ found⟩

/-- A trace survives when each stored value that it may be compared with is an old one or
evaluates from scratch. -/
theorem Traced.transfer (traced : Traced rules inputs world family key node value memo answers)
    (knows : KnowsNodes world.graph next.graph)
    (recorded_eq : next.graph.recorded node = world.graph.recorded node)
    (stores : ∀ other otherKey otherNode stored otherMemo,
      next.Stores other otherKey otherNode stored otherMemo →
      otherMemo.changedAt ≤ memo.verifiedAt →
        (∃ old, world.Stores other otherKey otherNode stored old ∧
          old.changedAt ≤ memo.verifiedAt) ∨
        Evaluates rules (inputs memo.verifiedAt) other otherKey stored) :
    Traced rules inputs next family key node value memo answers := { traced with
  recorded answer member := by
    rw [recorded_eq]
    exact (traced.recorded answer member).transfer knows
  unchanged answer member other stored otherMemo found unchanged := by
    rcases stores _ _ _ _ _ found unchanged with ⟨old, oldFound, oldUnchanged⟩ | evaluated
    · exact traced.unchanged answer member other stored old oldFound oldUnchanged
    · exact evaluated.unique (traced.evaluates answer member) }

theorem TicketOk.transfer {graph next : RequestEvaluatorGraph φ}
    (ok : TicketOk rules inputs graph issued answers)
    (knows : KnowsNodes graph next) : TicketOk rules inputs next issued answers := { ok with
  identity := knows _ _ ok.identity
  recorded answer member := (ok.recorded answer member).transfer knows }

section Removal

variable {family : RequestFamily φ} {removed : List (family.Key × TypedRequestCell family.Value)}

omit [Fingerprint φ] in
theorem cells_foldl_removeKey {key : family.Key} :
    ∀ {table : TypedRequestTable family}, (removed.foldl removeKey table).cells[key]? =
      if key ∈ removed.map Prod.fst then none else table.cells[key]? := by
  induction removed with
  | nil => simp
  | cons entry removed ih =>
    intro table
    rw [List.foldl_cons, ih, removeKey, getElem?_erase]
    by_cases later : key ∈ removed.map Prod.fst <;> simp [later, eq_comm]

omit [Fingerprint φ] in
theorem keysByNode_foldl_removeKey :
    ∀ {table : TypedRequestTable family}, (removed.foldl removeKey table).keysByNode[node]? =
      if node ∈ removed.map fun entry => entry.2.node then none
      else table.keysByNode[node]? := by
  induction removed with
  | nil => simp
  | cons entry removed ih =>
    intro table
    rw [List.foldl_cons, ih, removeKey, getElem?_erase]
    by_cases later : node ∈ removed.map fun entry => entry.2.node <;> simp [later, eq_comm]

end Removal

section Steps

variable [DecidableEq ι] {graph : RequestEvaluatorGraph φ}
  {table : TypedRequestTable (families family)}

theorem memo_verifyNode {other : RequestNodeId} {revision : Revision} :
    (graph.updateNode node (verifyNode revision)).memo other =
      if node = other then (graph.memo other).map fun memo =>
        { memo with verifiedAt := revision, dependenciesVerifiedAt := revision }
      else graph.memo other := by
  rw [memo, getElem?_updateNode]
  split
  · rw [memo]
    cases graph.nodes[other]? <;> rfl
  · rfl

@[simp]
theorem World.tables_replace_self : (world.replace family graph table).tables family = table :=
  Function.update_self ..

theorem World.tables_replace_of_ne {other : ι} (different : other ≠ family) :
    (world.replace family graph table).tables other = world.tables other :=
  Function.update_of_ne different ..

theorem World.replace_self :
    world.replace family graph (world.tables family) = { world with graph := graph } := by
  rw [replace, Function.update_eq_self]

theorem World.registered_replace
    (registered : ∀ family, Registered world.graph (world.tables family))
    (knows : KnowsNodes world.graph graph) (own : Registered graph table) (other : ι) :
    Registered graph ((world.replace family graph table).tables other) :=
  (Function.forall_update_iff world.tables (p := fun _ table => Registered graph table)).mpr
    ⟨own, fun other _ => { registered other with
      identity := fun found => knows _ _ ((registered other).identity found) }⟩ other

variable (sound : world.Sound rules inputs)

include sound

omit [DecidableEq ι] in
theorem World.Sound.lose (consistent : next.graph.Consistent)
    (registered : ∀ family, Registered next.graph (next.tables family))
    (knows : KnowsNodes world.graph next.graph)
    (revision : world.graph.revision ≤ next.graph.revision)
    (memos : ∀ node memo, next.graph.memo node = some memo →
      world.graph.memo node = some memo ∧ next.graph.recorded node = world.graph.recorded node)
    (cells : ∀ family (key : (families family).Key) node value, next.graph.memo node ≠ none →
      ((next.tables family).cells[key]? = some ⟨node, some value⟩ ↔
        (world.tables family).cells[key]? = some ⟨node, some value⟩))
    (issued : next.issued = world.issued) : next.Sound rules inputs := by
  have gained : ∀ {family key node value memo},
      next.Stores family key node value memo → world.Stores family key node value memo :=
    fun stored => ⟨(cells _ _ _ _ (by simp [stored.memo])).mp stored.cell,
      (memos _ _ stored.memo).1⟩
  constructor
  case consistent => exact consistent
  case registered => exact registered
  case stored =>
    intro node memo found
    rcases sound.stored (memos node memo found).1 with ⟨family, key, value, stored, output⟩
    exact ⟨family, key, value, ⟨(cells _ _ _ _ (by simp [found])).mpr stored.cell, found⟩, output⟩
  case verified => exact fun found => (sound.verified (memos _ _ found).1).trans revision
  case traced =>
    intro family key node value memo stored
    rcases sound.traced (gained stored) with ⟨answers, traced⟩
    refine ⟨answers, traced.transfer knows (memos node memo stored.memo).2 ?_⟩
    exact fun _ _ _ _ _ found unchanged => .inl ⟨_, gained found, unchanged⟩
  case issued =>
    rw [issued]
    intro held member
    rcases sound.issued held member with ⟨answers, ok⟩
    exact ⟨answers, ok.transfer knows⟩

omit [DecidableEq ι] in
theorem World.Sound.sameRecords (same : world.graph.SameRecords graph)
    (cleared : graph.Cleared) (revision : world.graph.revision ≤ graph.revision) :
    Sound rules inputs { world with graph := graph } := by
  have knows := knowsNodes_of_eq same.identity
  apply sound.lose
  case consistent => exact sound.consistent.sameRecords same cleared
  case registered =>
    exact fun family => { sound.registered family with
      identity := fun found => knows _ _ ((sound.registered family).identity found) }
  case knows => exact knows
  case revision => exact revision
  case memos => exact fun node memo found => ⟨same.memo ▸ found, congrFun same.recorded node⟩
  case cells => exact fun _ _ _ _ _ => Iff.rfl
  case issued => rfl

omit [DecidableEq ι] in
theorem World.Sound.issue (ok : TicketOk rules inputs world.graph issued answers) :
    (world.issue issued).Sound rules inputs := { sound with
  stored found := by
    rcases sound.stored found with ⟨family, key, value, stored, output⟩
    exact ⟨family, key, value, ⟨stored.cell, stored.memo⟩, output⟩
  traced stored := by
    rcases sound.traced ⟨stored.cell, stored.memo⟩ with ⟨trace, traced⟩
    refine ⟨trace, traced.transfer (knowsNodes_of_eq rfl) rfl fun _ _ _ _ _ found unchanged => ?_⟩
    exact .inl ⟨_, ⟨found.cell, found.memo⟩, unchanged⟩
  issued held member := by
    rcases List.mem_append.mp member with old | new
    · exact sound.issued held old
    · obtain rfl := List.mem_singleton.mp new
      exact ⟨answers, ok⟩ }

theorem World.Sound.loseFrom (consistent : graph.Consistent)
    (registered : Registered graph table) (knows : KnowsNodes world.graph graph)
    (revision : graph.revision = world.graph.revision)
    (memos : ∀ node memo, graph.memo node = some memo →
      world.graph.memo node = some memo ∧ graph.recorded node = world.graph.recorded node)
    (cells : ∀ (key : (families family).Key) node value, graph.memo node ≠ none →
      (table.cells[key]? = some ⟨node, some value⟩ ↔
        (world.tables family).cells[key]? = some ⟨node, some value⟩)) :
    (world.replace family graph table).Sound rules inputs := by
  apply sound.lose consistent
    (registered_replace sound.registered knows registered) knows revision.ge memos
  case cells =>
    exact (Function.forall_update_iff world.tables (p := fun other table =>
      ∀ (key : (families other).Key) node value, graph.memo node ≠ none →
        (table.cells[key]? = some ⟨node, some value⟩ ↔
          (world.tables other).cells[key]? = some ⟨node, some value⟩))).mpr
      ⟨cells, fun _ _ _ _ _ _ => Iff.rfl⟩
  case issued => rfl

variable (free : CollisionFree families)

include free

theorem World.Sound.register (absent : (world.tables family).cells[key]? = none)
    (registers : world.graph.Registers (identityOf (families family) key) node graph) :
    (world.replace family graph {
      cells := (world.tables family).cells.insert key ⟨node, none⟩
      keysByNode := (world.tables family).keysByNode.insert node key }).Sound rules inputs := by
  have before := sound.registered family
  have apart : ∀ other cell, (world.tables family).cells[other]? = some cell → key ≠ other := by
    rintro _ cell found rfl
    rw [absent] at found
    cases found
  apply sound.loseFrom registers.consistent _ registers.kept registers.revision
  case memos =>
    exact fun other memo found => ⟨registers.memo ▸ found, congrFun registers.recorded other⟩
  case cells =>
    intro other otherNode value _
    rw [getElem?_insert]
    split
    case isTrue key_eq => simp [← key_eq, absent]
    case isFalse => exact Iff.rfl
  constructor
  case identity =>
    intro other otherNode value found
    rcases getElem?_insert_eq_some_iff.mp found with ⟨rfl, node_eq⟩ | ⟨_, found⟩
    · cases node_eq
      exact registers.found
    · exact registers.kept _ _ (before.identity found)
  case key =>
    intro other otherNode value found
    rw [getElem?_insert] at found ⊢
    split at found
    case isTrue key_eq =>
      cases found
      rw [if_pos rfl, key_eq]
    case isFalse different =>
      have known := registers.kept _ _ (before.identity found)
      have other_node : node ≠ otherNode := by
        rintro rfl
        have identity_eq := some.inj (registers.found.symm.trans known)
        exact different (free.keys _ _ _ (congrArg keyFingerprint identity_eq))
      rw [if_neg other_node]
      exact before.key found
  case cell =>
    intro otherNode other found
    rcases getElem?_insert_eq_some_iff.mp found with ⟨rfl, rfl⟩ | ⟨_, found⟩
    · exact ⟨none, by rw [getElem?_insert, if_pos rfl]⟩
    · rcases before.cell found with ⟨value, stored⟩
      exact ⟨value, by rw [getElem?_insert, if_neg (apart _ _ stored), stored]⟩

theorem World.Sound.ensureNode {outcome : Outcome RequestNodeId}
    (ensured : TypedRequestTable.ensureNode world.graph (world.tables family) key =
      (outcome, graph, table)) :
    (world.replace family graph table).Sound rules inputs ∧
      graph.revision = world.graph.revision ∧
      ∀ node, outcome = .ok node → ∃ value, table.cells[key]? = some ⟨node, value⟩ := by
  rw [TypedRequestTable.ensureNode] at ensured
  split at ensured
  case h_1 cell found =>
    cases ensured
    rw [replace_self]
    refine ⟨sound, rfl, fun node outcome_eq => ?_⟩
    cases outcome_eq
    exact ⟨cell.value, found⟩
  case h_2 absent =>
    split at ensured
    case h_1 =>
      cases ensured
      rw [replace_self]
      exact ⟨sound, rfl, fun node outcome_eq => by cases outcome_eq⟩
    case h_2 node next registered =>
      have registers := sound.consistent.register registered
      split at ensured
      case h_1 previous collision =>
        -- The node of the previous key has the identity of the new key.
        rw [filter_eq_some_iff, decide_eq_true_eq] at collision
        rcases (sound.registered _).cell collision.1 with ⟨value, stored⟩
        have known := registers.kept _ _ ((sound.registered _).identity stored)
        have identity_eq := some.inj (known.symm.trans registers.found)
        exact absurd (free.keys _ _ _ (congrArg keyFingerprint identity_eq))
          collision.2
      case h_2 =>
        cases ensured
        refine ⟨sound.register free absent registers, registers.revision,
          fun other outcome_eq => ?_⟩
        cases outcome_eq
        exact ⟨none, by rw [getElem?_insert, if_pos rfl]⟩

omit [DecidableEq ι] in
theorem World.Sound.request_eq_of_node {first second : ι} {firstKey : (families first).Key}
    {secondKey : (families second).Key}
    {firstValue : Option (families first).Value} {secondValue : Option (families second).Value}
    (firstCell : (world.tables first).cells[firstKey]? = some ⟨node, firstValue⟩)
    (secondCell : (world.tables second).cells[secondKey]? = some ⟨node, secondValue⟩) :
    ∃ family_eq : first = second, family_eq ▸ firstKey = secondKey := by
  have known := (sound.registered _).identity firstCell
  exact free.request_eq (some.inj
    (known.symm.trans ((sound.registered _).identity secondCell)))

/-- A cell of one request. -/
abbrev CellOf (families : ι → RequestFamily φ) : Type :=
  (family : ι) × (families family).Key × TypedRequestCell (families family).Value

/-- One request has another memo or value; all others are what they were. -/
structure World.Refreshed (world next : World families) (family : ι) (key : (families family).Key)
    (node : RequestNodeId) (value : (families family).Value) (memo : RequestMemo φ) : Prop where
  memo : ∀ other, next.graph.memo other = if node = other then some memo else world.graph.memo other
  cells : ∀ other otherKey found, (next.tables other).cells[otherKey]? = some found ↔
      (⟨other, otherKey, found⟩ : CellOf families) = ⟨family, key, node, some value⟩ ∨
        (world.tables other).cells[otherKey]? = some found ∧ found.node ≠ node
  keys : ∀ other, (next.tables other).keysByNode = (world.tables other).keysByNode
  identity : next.graph.identity = world.graph.identity
  recorded : ∀ other ≠ node, next.graph.recorded other = world.graph.recorded other
  revision : next.graph.revision = world.graph.revision
  issued : next.issued = world.issued

section Refresh

variable {other : ι} {otherKey : (families other).Key} {otherNode : RequestNodeId}
  {stored : (families other).Value} {otherMemo : RequestMemo φ}

omit [DecidableEq ι] sound free in
theorem World.Refreshed.stores (refreshed : world.Refreshed next family key node value memo)
    (found : next.Stores other otherKey otherNode stored otherMemo) :
    ((⟨other, otherKey, otherNode, some stored⟩ : CellOf families) =
      ⟨family, key, node, some value⟩ ∧ otherMemo = memo) ∨
    (world.Stores other otherKey otherNode stored otherMemo ∧ otherNode ≠ node) := by
  have memo_found := found.memo
  rw [refreshed.memo] at memo_found
  rcases (refreshed.cells _ _ _).mp found.cell with _ | ⟨old, different⟩
  · grind
  · rw [if_neg (Ne.symm different)] at memo_found
    exact .inr ⟨⟨old, memo_found⟩, different⟩

omit [DecidableEq ι] in
theorem World.Sound.registered_refresh
    (cell : (world.tables family).cells[key]? = some ⟨node, held⟩)
    (refreshed : world.Refreshed next family key node value memo) (other : ι) :
    Registered next.graph (next.tables other) := by
  constructor
  case identity =>
    intro otherKey otherNode stored found
    rw [refreshed.identity]
    rcases (refreshed.cells _ _ _).mp found with cell_eq | ⟨old, _⟩
    · cases cell_eq
      exact (sound.registered _).identity cell
    · exact (sound.registered _).identity old
  case key =>
    intro otherKey otherNode stored found
    rw [refreshed.keys]
    rcases (refreshed.cells _ _ _).mp found with cell_eq | ⟨old, _⟩
    · cases cell_eq
      exact (sound.registered _).key cell
    · exact (sound.registered _).key old
  case cell =>
    intro otherNode otherKey found
    rw [refreshed.keys] at found
    rcases (sound.registered _).cell found with ⟨stored, old⟩
    by_cases same : otherNode = node
    · subst same
      rcases sound.request_eq_of_node free cell old with ⟨rfl, rfl⟩
      exact ⟨some value, (refreshed.cells _ _ _).mpr (.inl rfl)⟩
    · exact ⟨stored, (refreshed.cells _ _ _).mpr (.inr ⟨old, same⟩)⟩

omit [DecidableEq ι] in
/-- A refreshed request needs a trace of its own, and its value must be an old one or evaluate
from scratch wherever a trace of another request may be compared with it. -/
theorem World.Sound.refresh (cell : (world.tables family).cells[key]? = some ⟨node, held⟩)
    (refreshed : world.Refreshed next family key node value memo)
    (consistent : next.graph.Consistent)
    (output : (families family).outputFingerprint value = .ok memo.resultFingerprint)
    (verified : memo.verifiedAt ≤ world.graph.revision)
    (traced : Traced rules inputs next family key node value memo answers)
    (unchanged : ∀ revision ≤ world.graph.revision, memo.changedAt ≤ revision →
      (∃ old, world.Stores family key node value old ∧ old.changedAt ≤ revision) ∨
        Evaluates rules (inputs revision) family key value) : next.Sound rules inputs := by
  have knows := knowsNodes_of_eq refreshed.identity
  constructor
  case consistent => exact consistent
  case registered => exact sound.registered_refresh free cell refreshed
  case stored =>
    intro other otherMemo found
    rw [refreshed.memo] at found
    split at found
    case isTrue same =>
      subst same
      cases found
      refine ⟨family, key, value, ⟨(refreshed.cells _ _ _).mpr (.inl rfl), ?_⟩, output⟩
      rw [refreshed.memo, if_pos rfl]
    case isFalse different =>
      rcases sound.stored found with ⟨owner, ownerKey, stored, old, oldOutput⟩
      refine ⟨owner, ownerKey, stored,
        ⟨(refreshed.cells _ _ _).mpr (.inr ⟨old.cell, Ne.symm different⟩), ?_⟩, oldOutput⟩
      rw [refreshed.memo, if_neg different]
      exact found
  case verified =>
    intro other otherMemo found
    rw [refreshed.revision]
    rw [refreshed.memo] at found
    split at found
    case isTrue =>
      cases found
      exact verified
    case isFalse => exact sound.verified found
  case traced =>
    intro other otherKey otherNode stored otherMemo found
    rcases refreshed.stores found with ⟨cell_eq, rfl⟩ | ⟨old, different⟩
    · cases cell_eq
      exact ⟨answers, traced⟩
    · rcases sound.traced old with ⟨trace, before⟩
      refine ⟨trace, before.transfer knows (refreshed.recorded _ different)
        fun _ _ _ _ _ present bound => ?_⟩
      rcases refreshed.stores present with ⟨cell_eq, rfl⟩ | ⟨kept, _⟩
      · cases cell_eq
        exact unchanged _ (sound.verified old.memo) bound
      · exact .inl ⟨_, kept, bound⟩
  case issued =>
    rw [refreshed.issued]
    intro issued member
    rcases sound.issued issued member with ⟨trace, old⟩
    exact ⟨trace, old.transfer knows⟩

end Refresh

omit [DecidableEq ι] in
/-- A known request whose node has a memo stores a value that evaluates from scratch. -/
theorem World.Sound.stores_known
    (found : world.graph.identity node = some (identityOf (families family) key))
    (memo_eq : world.graph.memo node = some memo) :
    ∃ stored, world.Stores family key node stored memo ∧
      (families family).outputFingerprint stored = .ok memo.resultFingerprint ∧
      Evaluates rules (inputs memo.verifiedAt) family key stored := by
  rcases sound.stored memo_eq with ⟨_, _, stored, stores, output⟩
  have known := (sound.registered _).identity stores.cell
  rcases free.request_eq (some.inj (known.symm.trans found)) with ⟨rfl, rfl⟩
  rcases sound.traced stores with ⟨_, traced⟩
  exact ⟨stored, stores, output, traced.evaluates_value⟩

omit [DecidableEq ι] in
theorem World.Sound.verify {value : Option (families family).Value}
    (cell : (world.tables family).cells[key]? = some ⟨node, value⟩)
    (green : world.graph.Green node (inputs world.graph.revision family key))
    {next : RequestEvaluatorGraph φ} (next_eq : next = world.graph.updateNode node
      (RequestEvaluatorGraph.verifyNode world.graph.revision)) :
    World.Sound rules inputs { world with graph := next } := by
  rcases green with ⟨memo, memo_eq, input_eq, unchanged⟩
  have recorded_eq : next.recorded = world.graph.recorded :=
    next_eq ▸ recorded_updateNode fun _ => rfl
  have identity_eq : next.identity = world.graph.identity :=
    next_eq ▸ identity_updateNode fun _ => rfl
  have dependents_eq : next.dependents = world.graph.dependents :=
    next_eq ▸ dependents_updateNode fun _ => rfl
  have known := (sound.registered _).identity cell
  rcases sound.stores_known free known memo_eq with ⟨stored, stores, output, _⟩
  rcases sound.traced stores with ⟨answers, traced⟩
  let verified : RequestMemo φ := { memo with
    verifiedAt := world.graph.revision
    dependenciesVerifiedAt := world.graph.revision }
  have refreshed :
      world.Refreshed { world with graph := next } family key node stored verified := by
    refine ⟨fun other => ?_, fun other otherKey found => ⟨fun present => ?_, ?_⟩, fun _ => rfl,
      identity_eq, fun other _ => congrFun recorded_eq other, next_eq ▸ rfl, rfl⟩
    · change next.memo other = _
      rw [next_eq, memo_verifyNode]
      split
      case isTrue same =>
        rw [← same, memo_eq]
        rfl
      case isFalse => rfl
    · rcases found with ⟨foundNode, _⟩
      by_cases same : foundNode = node
      · subst same
        rcases sound.request_eq_of_node free stores.cell present with ⟨rfl, rfl⟩
        cases some.inj (stores.cell.symm.trans present)
        exact .inl rfl
      · exact .inr ⟨present, same⟩
    · rintro (cell_eq | ⟨present, _⟩)
      · cases cell_eq
        exact stores.cell
      · exact present
  -- Each answer is what its unchanged, verified dependency stores.
  have answered : ∀ answer ∈ answers, ∃ other otherMemo,
      world.Stores answer.family answer.key other answer.value otherMemo ∧
      Evaluates rules (inputs world.graph.revision) answer.family answer.key answer.value := by
    intro answer member
    rcases traced.recorded answer member with ⟨dependency, recorded, found⟩
    rcases unchanged dependency recorded with ⟨otherMemo, otherMemo_eq, verified, bound⟩
    rcases sound.stores_known free found otherMemo_eq with ⟨current, stores, _, evaluated⟩
    obtain rfl := traced.unchanged answer member _ _ _ stores bound
    exact ⟨dependency, otherMemo, stores, verified ▸ evaluated⟩
  apply sound.refresh free cell refreshed
  case consistent =>
    constructor
    case indexed =>
      intro identity other
      have identities_eq : next.identities = world.graph.identities := next_eq ▸ rfl
      rw [identities_eq, identity_eq]
      exact sound.consistent.indexed identity other
    case linked =>
      unfold Linked
      rw [recorded_eq, dependents_eq]
      exact sound.consistent.linked
    case cleared =>
      rw [next_eq]
      exact sound.consistent.cleared.updateNode fun _ _ removed => by cases removed
  case output => exact output
  case verified => exact le_rfl
  case unchanged => exact fun _ _ bound => .inl ⟨memo, stores, bound⟩
  refine ⟨traced.follows, input_eq, fun answer member => ?_, fun answer member => ?_,
    fun answer member other current otherMemo found _ => ?_⟩
  · rcases answered answer member with ⟨_, _, _, evaluated⟩
    exact evaluated
  · change answer.RecordedIn next (next.recorded node)
    rw [recorded_eq]
    exact (traced.recorded answer member).transfer (knowsNodes_of_eq identity_eq)
  · rcases answered answer member with ⟨_, _, expected, _⟩
    cases some.inj (found.cell.symm.trans expected.cell)
    rfl

theorem World.Sound.cell_publish {other : ι} {otherKey : (families other).Key}
    {update : TypedRequestCell (families family).Value →
      TypedRequestCell (families family).Value} {found : TypedRequestCell (families other).Value}
    (cell : (world.tables family).cells[key]? = some ⟨node, held⟩)
    (update_eq : update ⟨node, held⟩ = ⟨node, some value⟩) :
    ((world.replace family graph { world.tables family with
      cells := (world.tables family).cells.modify key update }).tables other).cells[otherKey]? =
        some found ↔
      (⟨other, otherKey, found⟩ : CellOf families) = ⟨family, key, node, some value⟩ ∨
        (world.tables other).cells[otherKey]? = some found ∧ found.node ≠ node := by
  by_cases same : other = family
  · subst same
    rw [tables_replace_self, Std.ExtTreeMap.getElem?_modify]
    by_cases key_eq : key = otherKey
    · grind
    · have apart : compare key otherKey ≠ .eq := by simpa using key_eq
      rw [if_neg apart]
      constructor
      · intro found
        refine .inr ⟨found, ?_⟩
        rintro rfl
        rcases sound.request_eq_of_node free cell found with ⟨_, rfl⟩
        exact key_eq rfl
      · rintro (cell_eq | ⟨found, _⟩)
        · cases cell_eq
          exact absurd rfl key_eq
        · exact found
  · rw [tables_replace_of_ne same]
    constructor
    · intro found
      refine .inr ⟨found, ?_⟩
      rintro rfl
      rcases sound.request_eq_of_node free cell found with ⟨rfl, _⟩
      exact same rfl
    · grind

omit [DecidableEq ι] in
theorem World.Sound.stores_unchanged
    (known : world.graph.identity node = some (identityOf (families family) key))
    (output : (families family).outputFingerprint value = .ok fingerprint)
    (memo_eq : world.graph.memo node = some memo) (result_eq : memo.resultFingerprint = fingerprint)
    : world.Stores family key node value memo := by
  rcases sound.stores_known free known memo_eq with ⟨_, stores, oldOutput, _⟩
  rw [result_eq] at oldOutput
  exact free.outputs _ _ _ _ oldOutput output ▸ stores

omit [DecidableEq ι] in
theorem World.Sound.stores_answer (ok : TicketOk rules inputs world.graph issued answers)
    (revision_eq : issued.ticket.revision = world.graph.revision)
    (current : ∀ dependency ∈ issued.ticket.dependencies,
      world.graph.isCurrent dependency = true) (member : answer ∈ answers) :
    ∃ node memo, world.Stores answer.family answer.key node answer.value memo := by
  rcases ok.recorded answer member with ⟨node, captured, known⟩
  rcases exists_memo_of_isCurrent (current node captured) with
    ⟨memo, memo_eq, verified⟩
  rcases sound.stores_known free known memo_eq with ⟨_, stores, _, evaluated⟩
  have answered := ok.evaluates answer member
  rw [revision_eq, ← verified] at answered
  exact ⟨node, memo, evaluated.unique answered ▸ stores⟩

section Publication

omit [DecidableEq ι] in
theorem World.Sound.storeValue_eq
    (cell : (world.tables family).cells[key]? = some ⟨ticket.node, held⟩)
    (output : (families family).outputFingerprint value = .ok fingerprint)
    (memo_eq : world.graph.publishedMemo ticket fingerprint = .ok (changed, memo)) :
    storeValue changed value ⟨ticket.node, held⟩ = ⟨ticket.node, some value⟩ := by
  rw [storeValue]
  split
  case isTrue => rfl
  case isFalse kept =>
    rw [Bool.or_eq_true, not_or, Bool.not_eq_true] at kept
    rcases (publishedMemo_eq_ok memo_eq).2.2.2 with
      ⟨changed_eq, _⟩ | ⟨old, old_eq, _, result_eq, _⟩
    · rw [changed_eq] at kept
      cases kept.1
    · have known := (sound.registered _).identity cell
      have stores := sound.stores_unchanged free known output old_eq result_eq
      exact some.inj (cell.symm.trans stores.cell)

theorem World.Sound.publish
    (ok : TicketOk rules inputs world.graph ⟨ticket, family, key, .done value⟩ answers)
    (cell : (world.tables family).cells[key]? = some ⟨ticket.node, held⟩)
    (output : (families family).outputFingerprint value = .ok fingerprint)
    (revision_eq : ticket.revision = world.graph.revision)
    (current : ∀ dependency ∈ ticket.dependencies, world.graph.isCurrent dependency = true)
    (memo_eq : world.graph.publishedMemo ticket fingerprint = .ok (changed, memo))
    (published : world.graph.PublishedIn ticket memo graph) :
    (world.replace family graph { world.tables family with
      cells := (world.tables family).cells.modify key (storeValue changed value) }).Sound
        rules inputs := by
  have update_eq := sound.storeValue_eq free cell output memo_eq
  have memo_spec := publishedMemo_eq_ok memo_eq
  have evaluated : Evaluates rules (inputs world.graph.revision) family key value := by
    have finished := ok.follows.runs ok.evaluates .done
    rw [ok.input] at finished
    exact revision_eq ▸ finished
  have refreshed : world.Refreshed (world.replace family graph { world.tables family with
      cells := (world.tables family).cells.modify key (storeValue changed value) })
      family key ticket.node value memo := by
    refine ⟨published.memo, fun _ _ _ => sound.cell_publish free cell update_eq, fun other => ?_,
      published.identity, fun other different => ?_, published.revision, rfl⟩
    · by_cases same : other = family
      · subst same
        rw [tables_replace_self]
      · rw [tables_replace_of_ne same]
    · exact (published.recorded other).trans (if_neg (Ne.symm different))
  apply sound.refresh free cell refreshed
  case consistent =>
    constructor
    case indexed =>
      intro identity node
      change graph.identities[identity]? = some node ↔ graph.identity node = some identity
      rw [published.identities, published.identity]
      exact sound.consistent.indexed identity node
    case linked => exact published.linked sound.consistent.linked
    case cleared => exact published.cleared sound.consistent.cleared
  case output => exact memo_spec.2.2.1 ▸ output
  case verified => exact memo_spec.1.le
  case unchanged =>
    intro revision bound unchanged
    rcases memo_spec.2.2.2 with ⟨_, changed_eq⟩ | ⟨before, before_eq, _, result_eq, kept⟩
    · rw [changed_eq] at unchanged
      exact .inr (le_antisymm bound unchanged ▸ evaluated)
    · rw [kept] at unchanged
      exact .inl ⟨before, sound.stores_unchanged free ok.identity output before_eq result_eq,
        unchanged⟩
  have input_eq := memo_spec.2.1
  constructor
  case follows =>
    rw [input_eq]
    exact ok.follows
  case input =>
    rw [input_eq, memo_spec.1, ← revision_eq]
    exact ok.input
  case evaluates =>
    rw [memo_spec.1, ← revision_eq]
    exact ok.evaluates
  case recorded =>
    intro answer member
    rcases ok.recorded answer member with ⟨dependency, captured, known⟩
    refine ⟨dependency, ?_, knowsNodes_of_eq published.identity _ _ known⟩
    change dependency ∈ graph.recorded ticket.node
    rw [published.recorded, if_pos rfl]
    exact mem_sortedDependencies.mpr captured
  case unchanged =>
    intro answer member other stored otherMemo present _
    have answered := revision_eq ▸ ok.evaluates answer member
    rcases sound.stores_answer free ok revision_eq current member with ⟨_, _, expected⟩
    rcases refreshed.stores present with ⟨cell_eq, _⟩ | ⟨before, _⟩
    · cases cell_eq
      exact evaluated.unique answered
    · cases some.inj (before.cell.symm.trans expected.cell)
      rfl

end Publication

omit free in
theorem World.Sound.remove
    {removed : List ((families family).Key × TypedRequestCell (families family).Value)}
    (present : ∀ entry ∈ removed, (world.tables family).cells[entry.1]? = some entry.2)
    (gone : world.graph.RemovedFrom (removed.map fun entry => entry.2.node) graph) :
    (world.replace family graph (removed.foldl removeKey (world.tables family))).Sound
      rules inputs := by
  have before := sound.registered family
  -- A key is removed exactly when its node is.
  have removed_iff : ∀ key node value, (world.tables family).cells[key]? = some ⟨node, value⟩ →
      (key ∈ removed.map Prod.fst ↔ node ∈ removed.map fun entry => entry.2.node) := by
    intro key node value cell
    constructor
    · intro member
      rcases List.mem_map.mp member with ⟨entry, listed, rfl⟩
      have cell_eq := some.inj ((present entry listed).symm.trans cell)
      exact List.mem_map.mpr ⟨entry, listed, by rw [cell_eq]⟩
    · intro member
      rcases List.mem_map.mp member with ⟨entry, listed, rfl⟩
      have entry_key := before.key (present entry listed)
      exact List.mem_map.mpr ⟨entry, listed,
        some.inj (entry_key.symm.trans (before.key cell))⟩
  have memo_some : ∀ node memo, graph.memo node = some memo →
      node ∉ (removed.map fun entry => entry.2.node) ∧ world.graph.memo node = some memo := by
    intro node memo found
    rw [gone.memo] at found
    split at found
    case isTrue => cases found
    case isFalse kept => exact ⟨kept, found⟩
  have left : ∀ (key : (families family).Key) node value,
      (removed.foldl removeKey (world.tables family)).cells[key]? = some ⟨node, value⟩ ↔
        (world.tables family).cells[key]? = some ⟨node, value⟩ ∧
          node ∉ removed.map fun entry => entry.2.node := by
    intro key node value
    rw [cells_foldl_removeKey]
    split
    case isTrue member =>
      refine ⟨fun found => (nomatch found), fun ⟨cell, kept⟩ => ?_⟩
      exact absurd ((removed_iff _ _ _ cell).mp member) kept
    case isFalse kept => exact ⟨fun cell => ⟨cell, (removed_iff _ _ _ cell).not.mp kept⟩, And.left⟩
  apply sound.loseFrom gone.consistent _ (knowsNodes_of_eq gone.identity) gone.revision
  case memos =>
    intro node memo found
    rcases memo_some node memo found with ⟨kept, memo_eq⟩
    exact ⟨memo_eq, (gone.recorded node).trans (if_neg kept)⟩
  case cells =>
    intro key node value memo
    rcases ne_none_iff_exists'.mp memo with ⟨_, found⟩
    rw [left, and_iff_left (memo_some _ _ found).1]
  constructor
  case identity =>
    intro key node value found
    rw [gone.identity]
    exact before.identity ((left _ _ _).mp found).1
  case key =>
    intro key node value found
    rcases (left _ _ _).mp found with ⟨cell, kept⟩
    rw [keysByNode_foldl_removeKey, if_neg kept]
    exact before.key cell
  case cell =>
    intro node key found
    rw [keysByNode_foldl_removeKey] at found
    split at found
    case isTrue => cases found
    case isFalse kept =>
      rcases before.cell found with ⟨value, cell⟩
      exact ⟨value, (left _ _ _).mpr ⟨cell, kept⟩⟩

end Steps

end Soundness

end BoonCircuit.CompilationDb
