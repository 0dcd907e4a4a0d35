import BoonCircuit.CompilationDb.Invariant

/-!
# Incremental evaluation agrees with evaluation from scratch

Each call keeps the invariant, so whatever the database reuses, hands out or calls
current is what the rules give at the current revision.
-/

namespace BoonCircuit.CompilationDb

open Lib TypedRequestTable RequestEvaluatorGraph Std World

section Soundness

variable {ι φ : Type} [Fingerprint φ] {families : ι → RequestFamily φ}
  {rules : Rules families} {inputs : Revision → Inputs families}

section Calls

variable [DecidableEq ι]

variable {world : World families} {family : ι} {key : (families family).Key}
  {graph : RequestEvaluatorGraph φ} {table : TypedRequestTable (families family)}
  {ticket captured : RequestEvaluationTicket φ} {answers : List (Answer families)}
  {value : (families family).Value} {outcome : Outcome Unit}

omit [DecidableEq ι] in
theorem TicketOk.capture {residual : Computation families (families family).Value}
    (ok : TicketOk rules inputs graph ⟨ticket, family, key, residual⟩ answers)
    (dependency : RequestNodeId) :
    TicketOk rules inputs graph ⟨{ ticket with
      dependencies := ticket.dependencies ++ [dependency] }, family, key, residual⟩ answers :=
  { ok with
  recorded answer member := by
    rcases ok.recorded answer member with ⟨node, captured, known⟩
    exact ⟨node, List.mem_append_left _ captured, known⟩ }

theorem TypedRequestTable.require_cases {family : RequestFamily φ}
    {table : TypedRequestTable family} {key : family.Key} {outcome : Outcome family.Value}
    (answered : table.require graph ticket key = (outcome, captured)) :
    ((∃ error, outcome = .error error) ∧ captured = ticket) ∨
      ∃ cell, table.cells[key]? = some cell ∧ ticket.revision = graph.revision ∧
        graph.isCurrent cell.node = true ∧
        captured = { ticket with dependencies := ticket.dependencies ++ [cell.node] } ∧
        ∀ value, outcome = .ok value → cell.value = some value := by
  rw [TypedRequestTable.require] at answered
  split at answered
  case h_1 =>
    cases answered
    exact .inl ⟨⟨_, rfl⟩, rfl⟩
  case h_2 cell found =>
    split at answered
    case h_1 =>
      cases answered
      exact .inl ⟨⟨_, rfl⟩, rfl⟩
    case h_2 next required =>
      rcases require_eq_ok required with ⟨revision_eq, current, next_eq⟩
      refine .inr ⟨cell, found, revision_eq, current, ?_⟩
      split at answered
      case h_1 value value_eq =>
        cases answered
        refine ⟨next_eq, fun other other_eq => ?_⟩
        cases other_eq
        exact value_eq
      case h_2 =>
        cases answered
        exact ⟨next_eq, fun other other_eq => by cases other_eq⟩

section Sound

variable (sound : world.Sound rules inputs) (free : CollisionFree families)

include sound free

/-- Beginning a request: a reused one is verified at the current revision. -/
theorem World.Sound.begin {outcome : Outcome (RequestStart φ)}
    (begun : (world.tables family).begin world.graph key
      (inputs world.graph.revision family key) = (outcome, graph, table)) :
    (world.replace family graph table).Sound rules inputs ∧
      graph.revision = world.graph.revision ∧
      (outcome = .ok .reused → ∃ node value memo,
        (world.replace family graph table).Stores family key node value memo ∧
          memo.verifiedAt = world.graph.revision) ∧
      ∀ ticket, outcome = .ok (.execute ticket) → TicketOk rules inputs graph
        ⟨ticket, family, key, rules family key (inputs world.graph.revision family key)⟩ [] := by
  rw [TypedRequestTable.begin] at begun
  split at begun
  case h_1 error first between ensured =>
    cases begun
    rcases sound.ensureNode free ensured with ⟨kept, revision_eq, _⟩
    exact ⟨kept, revision_eq, fun reused => (by cases reused), fun _ started => by cases started⟩
  case h_2 node first between ensured =>
    rcases sound.ensureNode free ensured with ⟨kept, revision_eq, found⟩
    rcases found node rfl with ⟨value, cell⟩
    have own_cell : ((world.replace family first between).tables family).cells[key]? =
        some ⟨node, value⟩ := by
      rw [tables_replace_self]
      exact cell
    have known := (kept.registered _).identity own_cell
    split at begun
    case h_1 =>
      cases begun
      exact ⟨kept, revision_eq, fun reused => (by cases reused), fun _ started => by cases started⟩
    case h_2 start next started =>
      cases begun
      cases starts_of_begin started with
      | verified verified =>
        rcases verified with ⟨memo, memo_eq, verified, _⟩
        rcases kept.stores_known free known memo_eq with ⟨stored, stores, _⟩
        exact ⟨kept, revision_eq, fun _ => ⟨node, stored, memo, stores, verified.trans revision_eq⟩,
          fun _ started => by cases started⟩
      | green green =>
        have after := kept.verify free own_cell (revision_eq ▸ green) rfl
        refine ⟨after, revision_eq, fun _ => ?_, fun _ started => by cases started⟩
        rcases green with ⟨memo, memo_eq, _⟩
        have after_eq : (first.updateNode node (verifyNode first.revision)).memo node = _ :=
          memo_verifyNode
        rw [if_pos rfl, memo_eq] at after_eq
        have after_known := (after.registered _).identity own_cell
        rcases after.stores_known free after_known after_eq with ⟨stored, stores, _⟩
        exact ⟨node, stored, _, stores, revision_eq⟩
      | execute ticket next node_eq revision_ticket input_eq _ same cleared kept_revision =>
        have after := kept.sameRecords same (cleared kept.consistent.cleared) kept_revision.ge
        refine ⟨after, kept_revision.trans revision_eq, fun reused => (by cases reused),
          fun issued issued_eq => ?_⟩
        cases issued_eq
        constructor
        case identity =>
          rw [same.identity, node_eq]
          exact known
        case follows =>
          rw [input_eq]
          exact .start
        case input => rw [input_eq, revision_ticket, revision_eq]
        case evaluates => simp
        case recorded => simp

omit [DecidableEq ι] in
theorem World.Sound.evaluates_current {node : RequestNodeId}
    (cell : (world.tables family).cells[key]? = some ⟨node, some value⟩)
    (current : world.graph.isCurrent node = true) :
    Evaluates rules (inputs world.graph.revision) family key value := by
  rcases exists_memo_of_isCurrent current with ⟨_, memo_eq, verified⟩
  have known := (sound.registered _).identity cell
  rcases sound.stores_known free known memo_eq with ⟨_, stores, _, evaluated⟩
  have cell_eq := Option.some.inj (cell.symm.trans stores.cell)
  cases cell_eq
  exact verified ▸ evaluated

omit [DecidableEq ι] in
theorem World.Sound.require {required : ι} {dependency : (families required).Key}
    {next : (families required).Value → Computation families (families family).Value}
    {value : (families required).Value} (ok : TicketOk rules inputs world.graph
      ⟨ticket, family, key, .require required dependency next⟩ answers)
    (answered : (world.tables required).require world.graph ticket dependency =
      (.ok value, captured)) :
    TicketOk rules inputs world.graph ⟨captured, family, key, next value⟩
      (answers ++ [⟨required, dependency, value⟩]) := by
  rcases require_cases answered with
    ⟨⟨_, failed⟩, _⟩ | ⟨⟨node, _⟩, cell, revision_eq, current, rfl, held_eq⟩
  · cases failed
  · obtain rfl := held_eq value rfl
    have evaluated := sound.evaluates_current free cell current
    have wider := ok.capture node
    constructor
    case identity => exact ok.identity
    case follows => exact ok.follows.answer value
    case input => exact ok.input
    case evaluates =>
      intro answer member
      rcases List.mem_append.mp member with old | new
      · exact ok.evaluates answer old
      · obtain rfl := List.mem_singleton.mp new
        exact revision_eq ▸ evaluated
    case recorded =>
      intro answer member
      rcases List.mem_append.mp member with old | new
      · exact wider.recorded answer old
      · obtain rfl := List.mem_singleton.mp new
        exact ⟨node, List.mem_append_right _ List.mem_cons_self,
          (sound.registered _).identity cell⟩

theorem World.Sound.publishTable
    (ok : TicketOk rules inputs world.graph ⟨ticket, family, key, .done value⟩ answers)
    (published : (world.tables family).publish world.graph ticket value =
      (outcome, graph, table)) : (world.replace family graph table).Sound rules inputs := by
  rw [TypedRequestTable.publish] at published
  split at published
  case h_1 =>
    cases published
    rw [replace_self]
    exact sound
  case h_2 found found_eq =>
    rcases (sound.registered _).cell found_eq with ⟨_, cell⟩
    have known := (sound.registered _).identity cell
    rcases free.request_eq (Option.some.inj (known.symm.trans ok.identity)) with ⟨_, key_eq⟩
    obtain rfl : found = key := key_eq
    split at published
    case h_1 =>
      split at published
      case h_1 =>
        cases published
        rw [replace_self]
        exact sound
      case h_2 next aborted =>
        cases published
        rw [replace_self]
        rcases abort_eq_ok aborted with ⟨same, revision_eq, cleared⟩
        exact sound.sameRecords same (cleared sound.consistent.cleared) revision_eq.ge
    case h_2 fingerprint output =>
      split at published
      case h_1 =>
        cases published
        rw [replace_self]
        exact sound
      case h_2 changed next stored =>
        cases published
        rcases publish_eq_ok stored with
          ⟨revision_eq, current, _, memo_eq, publishedIn⟩
        exact sound.publish free ok cell output revision_eq current memo_eq publishedIn

theorem World.Sound.publish_foreign {issued : Issued families}
    (ok : TicketOk rules inputs world.graph issued answers) (foreign : family ≠ issued.family)
    (published : (world.tables family).publish world.graph issued.ticket value =
      (outcome, graph, table)) : (world.replace family graph table).Sound rules inputs := by
  rw [TypedRequestTable.publish] at published
  split at published
  case h_1 =>
    cases published
    rw [replace_self]
    exact sound
  case h_2 key found =>
    rcases (sound.registered _).cell found with ⟨_, cell⟩
    have known := (sound.registered _).identity cell
    rcases free.request_eq (Option.some.inj (known.symm.trans ok.identity)) with ⟨family_eq, _⟩
    exact absurd family_eq foreign

omit free in
theorem World.Sound.retain {keep : (families family).Key → Bool}
    (retained : (world.tables family).retain world.graph keep = (outcome, graph, table)) :
    (world.replace family graph table).Sound rules inputs := by
  rw [TypedRequestTable.retain] at retained
  split at retained
  case h_1 =>
    cases retained
    rw [replace_self]
    exact sound
  case h_2 next removed =>
    cases retained
    obtain rfl := removeNodes_eq_ok removed
    apply sound.remove _ sound.consistent.foldl_removeNode
    exact fun entry member => BTreeMap.mem_toList_iff.mp (List.mem_filter.mp member).1

theorem World.Sound.step {next : World families} (step : Step rules inputs world next) :
    next.Sound rules inputs := by
  cases step with
  | advanceTo revision =>
    obtain ⟨same, onwards⟩ : SameRecords world.graph (world.graph.advanceTo revision).2 ∧ _ :=
      sameRecords_advanceTo
    exact sound.sameRecords same sound.consistent.cleared.advanceTo onwards
  | reuse family key begun => exact (sound.begin free begun).1
  | execute family key begun =>
    rcases sound.begin free begun with ⟨kept, _, _, issued⟩
    exact kept.issue (issued _ rfl)
  | require held answered =>
    rcases sound.issued _ held with ⟨answers, ok⟩
    exact sound.issue (sound.require free ok answered)
  | ignore held answered =>
    rcases sound.issued _ held with ⟨answers, ok⟩
    rcases require_cases answered with ⟨_, rfl⟩ | ⟨cell, _, _, _, rfl, _⟩
    · exact sound.issue ok
    · exact sound.issue (ok.capture cell.node)
  | publish held published =>
    rcases sound.issued _ held with ⟨answers, ok⟩
    exact sound.publishTable free ok published
  | misdirect held foreign published =>
    rcases sound.issued _ held with ⟨answers, ok⟩
    exact sound.publish_foreign free ok foreign published
  | abort held aborted =>
    rcases abort_eq_ok aborted with ⟨same, revision_eq, cleared⟩
    exact sound.sameRecords same (cleared sound.consistent.cleared) revision_eq.ge
  | retain family keep retained => exact sound.retain retained

end Sound

omit [DecidableEq ι] in
theorem World.sound_new {revision : Revision} :
    (World.new revision : World families).Sound rules inputs where
  consistent := consistent_new
  registered _ := by constructor <;> simp [World.new, TypedRequestTable.new]
  stored := by simp [World.new, RequestEvaluatorGraph.new, RequestEvaluatorGraph.memo]
  verified := by simp [World.new, RequestEvaluatorGraph.new, RequestEvaluatorGraph.memo]
  traced stores := by
    have found := stores.cell
    simp [World.new, TypedRequestTable.new] at found
  issued := by simp [World.new]

theorem Reached.sound (free : CollisionFree families)
    (reached : Reached rules inputs world) : world.Sound rules inputs := by
  rcases reached with ⟨_, run⟩
  induction run with
  | refl => exact sound_new
  | tail _ step sound => exact sound.step free step

/-- The value is the one result of evaluating the request from scratch. -/
def IsResult (rules : Rules families) (inputs : Inputs families) (family : ι)
    (key : (families family).Key) (value : (families family).Value) : Prop :=
  ∀ result, Evaluates rules inputs family key result ↔ result = value

omit [Fingerprint φ] [DecidableEq ι] in
theorem Evaluates.isResult {inputs : Inputs families}
    (evaluated : Evaluates rules inputs family key value) :
    IsResult rules inputs family key value :=
  fun _ => ⟨fun other => other.unique evaluated, fun same => same ▸ evaluated⟩

/-- Whatever the database reuses, hands out or calls current is the result of evaluating
the request from scratch at the current revision, and a reverse cone holds exactly the
nodes that reach a root through recorded dependencies. -/
theorem incremental_values_evaluate (free : CollisionFree families) {world : World families}
    (reached : Reached rules inputs world) :
    (∀ (family : ι) (key : (families family).Key) (graph : RequestEvaluatorGraph φ)
      (table : TypedRequestTable (families family)),
      (world.tables family).begin world.graph key (inputs world.graph.revision family key) =
        (.ok .reused, graph, table) →
      ∃ node value, table.cells[key]? = some ⟨node, some value⟩ ∧
        IsResult rules (inputs world.graph.revision) family key value) ∧
    (∀ (ticket captured : RequestEvaluationTicket φ) (family : ι) (key : (families family).Key)
      (value : (families family).Value),
      (world.tables family).require world.graph ticket key = (.ok value, captured) →
        IsResult rules (inputs world.graph.revision) family key value) ∧
    (∀ (family : ι) (key : (families family).Key) (value : (families family).Value),
      (world.tables family).currentValue world.graph key = .ok (some value) →
        IsResult rules (inputs world.graph.revision) family key value) ∧
    ∀ roots : List RequestNodeId, ∃ cone, world.graph.reverseCone roots = some cone ∧
      ∀ node, node ∈ cone ↔ ∃ root ∈ roots, world.graph.DependsOn node root := by
  have sound := reached.sound free
  refine ⟨?_, ?_, ?_, sound.consistent.linked.mem_reverseCone⟩
  · intro family key graph table begun
    rcases sound.begin free begun with ⟨kept, _, reused, _⟩
    rcases reused rfl with ⟨node, value, _, stores, verified⟩
    rcases kept.traced stores with ⟨_, traced⟩
    have cell := stores.cell
    rw [tables_replace_self] at cell
    exact ⟨node, value, cell, (verified ▸ traced.evaluates_value).isResult⟩
  · intro ticket captured family key value answered
    rcases require_cases answered with
      ⟨⟨_, failed⟩, _⟩ | ⟨⟨node, held⟩, cell, _, current, _, held_eq⟩
    · cases failed
    · obtain rfl := held_eq value rfl
      exact (sound.evaluates_current free cell current).isResult
  · intro family key value read
    rw [currentValue, Checks.check_bind_eq_ok_iff] at read
    rcases read with ⟨_, read⟩
    split at read
    case h_1 => cases read
    case h_2 cell found =>
      rcases cell with ⟨node, held⟩
      split at read
      case isTrue current =>
        cases read
        exact (sound.evaluates_current free found current).isResult
      case isFalse => cases read

end Calls

end Soundness

instance : Fingerprint Nat where
  decEq := inferInstance

/-- One family of numbered requests whose values are numbers. -/
def numberFamily (_ : Unit) : RequestFamily Nat where
  Key := Nat
  Value := Nat
  name := "number"
  keyFingerprint := id
  outputFingerprint := .ok

/-- Request zero is its input; every other request adds its input to request zero. -/
def numberRules : Rules numberFamily := fun _ (key : Nat) input =>
  if key = 0 then .done input
  else .require () (0 : Nat) fun (base : Nat) => .done (base + input : Nat)

/-- The input of every request is the revision. -/
def revisionInputs (revision : Revision) : Inputs numberFamily := fun _ _ => revision

theorem collisionFree_numberFamily : CollisionFree numberFamily where
  names := by simp
  keys _ _ _ same := same
  outputs _ _ _ _ first second := Except.ok.inj (first.trans second.symm)

/-- Request one is published with the value of request zero, and then reused. -/
theorem dependent_request_evaluates : ∃ world : World numberFamily,
    Reached numberRules revisionInputs world ∧
    ((world.tables ()).begin world.graph (1 : Nat)
      (revisionInputs world.graph.revision () (1 : Nat))).1 = .ok .reused ∧
    IsResult numberRules (revisionInputs world.graph.revision) () (1 : Nat) (10 : Nat) := by
  have zero : Reached numberRules revisionInputs _ :=
    ⟨5, (Relation.ReflTransGen.single (.execute (World.new 5) () (0 : Nat) rfl)).tail
      (.publish _ (List.mem_singleton_self
        (⟨_, (), (0 : Nat), .done (5 : Nat)⟩ : Issued numberFamily)) rfl)⟩
  obtain ⟨start, run⟩ := zero
  have reached : Reached numberRules revisionInputs _ :=
    ⟨start, ((run.tail (.execute _ () (1 : Nat) rfl)).tail
      (.require _ (List.mem_append_right _ (List.mem_singleton_self (⟨_, (), (1 : Nat),
        .require () (0 : Nat) fun (base : Nat) => .done (base + 5 : Nat)⟩ :
          Issued numberFamily))) rfl)).tail
      (.publish _ (List.mem_append_right _ (List.mem_singleton_self
        (⟨_, (), (1 : Nat), .done (10 : Nat)⟩ : Issued numberFamily))) rfl)⟩
  exact ⟨_, reached, rfl, (incremental_values_evaluate collisionFree_numberFamily reached).2.2.1
    () (1 : Nat) (10 : Nat) rfl⟩

end BoonCircuit.CompilationDb
