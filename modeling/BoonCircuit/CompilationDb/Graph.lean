import BoonCircuit.Lib.Checks
import BoonCircuit.Lib.Text
import BoonCircuit.Lib.Worklist

/-!
# The request graph of the compilation database

Nodes carry revisions, recorded dependencies and the state of their evaluation;
values live in the typed tables.  A method that fails returns an error and keeps
the graph, except for `advance_to`, which moves the revision before it counts the
generation.  Fingerprints are the points of an arbitrary ordered type.
-/

namespace BoonCircuit.CompilationDb

open Lib Checks

/-- A failure with its message. -/
abbrev Outcome (α : Type) : Type := Except String α

/-- A position in the history of inputs.  Revisions are only compared, never computed. -/
abbrev Revision : Type := Nat

/-- The largest generation. -/
def maxWord : Nat := 2 ^ 64 - 1

/-- What the database asks of fingerprints. -/
class Fingerprint (φ : Type) extends Ord φ, Std.TransOrd φ, Std.LawfulEqOrd φ, ToString φ where
  decEq : DecidableEq φ

instance {φ : Type} [Fingerprint φ] : DecidableEq φ :=
  Fingerprint.decEq

section Graph

variable {φ : Type}

structure RequestMemo (φ : Type) where
  changedAt : Revision
  verifiedAt : Revision
  dependenciesVerifiedAt : Revision
  inputFingerprint : φ
  resultFingerprint : φ

namespace RequestMemo

def new (revision : Revision) (inputFingerprint resultFingerprint : φ) : RequestMemo φ where
  changedAt := revision
  verifiedAt := revision
  dependenciesVerifiedAt := revision
  inputFingerprint := inputFingerprint
  resultFingerprint := resultFingerprint

/-- Publishes a recomputed request; an unchanged result keeps its revision of change. -/
def publish [Fingerprint φ] (memo : RequestMemo φ) (revision dependenciesVerifiedAt : Revision)
    (inputFingerprint resultFingerprint : φ) : Outcome (Bool × RequestMemo φ) := do
  reject (revision ≤ memo.verifiedAt)
    (s!"compilation request publication revision {revision} is not newer than verified " ++
      s!"revision {memo.verifiedAt}")
  reject (dependenciesVerifiedAt ≠ revision)
    (s!"compilation request dependencies are verified at revision {dependenciesVerifiedAt}, " ++
      s!"expected {revision}")
  let changed := decide (memo.resultFingerprint ≠ resultFingerprint)
  pure (changed, {
    changedAt := if changed then revision else memo.changedAt
    verifiedAt := revision
    dependenciesVerifiedAt := dependenciesVerifiedAt
    inputFingerprint := inputFingerprint
    resultFingerprint := resultFingerprint })

end RequestMemo

abbrev RequestNodeId : Type := Nat

structure RequestNodeIdentity (φ : Type) where
  family : String
  keyFingerprint : φ
  deriving DecidableEq

namespace RequestNodeIdentity

variable [Fingerprint φ]

protected def cmp : RequestNodeIdentity φ → RequestNodeIdentity φ → Ordering :=
  compareLex (compareOn fun identity => Text.utf8Bytes identity.family) (compareOn keyFingerprint)

instance : Ord (RequestNodeIdentity φ) :=
  ⟨RequestNodeIdentity.cmp⟩

instance : Std.TransOrd (RequestNodeIdentity φ) :=
  inferInstanceAs (Std.TransCmp (compareLex _ _))

instance : Std.LawfulEqOrd (RequestNodeIdentity φ) where
  compare_self {identity} := by
    change compareLex _ _ identity identity = .eq
    simp [compareLex, compareOn]
  eq_of_compare {left right} same := by
    rcases left with ⟨_, _⟩
    rcases right with ⟨_, _⟩
    change compareLex _ _ _ _ = .eq at same
    simpa only [compareLex, compareOn, Ordering.then_eq_eq, Std.compare_eq_iff_eq,
      Text.utf8Bytes_inj, RequestNodeIdentity.mk.injEq] using same

instance : ToString (RequestNodeIdentity φ) :=
  ⟨fun identity => s!"{identity.family}:{identity.keyFingerprint}"⟩

end RequestNodeIdentity

inductive RequestNodeState where
  | vacant
  | published
  | computing (revision : Revision) (generation : Nat) (stackIndex : Nat)
  | failed (revision : Revision)
  | removed
  deriving DecidableEq

structure RequestNode (φ : Type) where
  identity : RequestNodeIdentity φ
  state : RequestNodeState
  memo : Option (RequestMemo φ)
  dependencies : List RequestNodeId
  reverseDependents : BTreeSet RequestNodeId

/-- Permission to publish one request, with the dependencies captured so far. -/
structure RequestEvaluationTicket (φ : Type) where
  node : RequestNodeId
  revision : Revision
  generation : Nat
  stackIndex : Nat
  inputFingerprint : φ
  dependencies : List RequestNodeId
  hadPublication : Bool

/-- The captured dependencies, sorted and without repetitions. -/
def RequestEvaluationTicket.sortedDependencies {φ : Type} (ticket : RequestEvaluationTicket φ) :
    List RequestNodeId :=
  (Std.ExtTreeSet.ofList ticket.dependencies compare).toList

inductive RequestStart (φ : Type) where
  | execute (ticket : RequestEvaluationTicket φ)
  | reused

inductive RequestAbortReason where
  | failed
  | canceled
  deriving DecidableEq

structure RequestEvaluatorGraph (φ : Type) [Fingerprint φ] where
  revision : Revision
  generation : Nat
  identities : BTreeMap (RequestNodeIdentity φ) RequestNodeId
  nodes : List (RequestNode φ)
  active : List RequestNodeId

variable [Fingerprint φ]

namespace RequestEvaluatorGraph

def new (revision : Revision) : RequestEvaluatorGraph φ where
  revision := revision
  generation := 0
  identities := ∅
  nodes := []
  active := []

variable (graph : RequestEvaluatorGraph φ)

/-- Rewrites one node in place. -/
def updateNode (node : RequestNodeId)
    (update : RequestNode φ → RequestNode φ) : RequestEvaluatorGraph φ :=
  { graph with nodes := graph.nodes.modify node update }

/-- The state of a computation that a newer revision supersedes. -/
def supersede (node : RequestNode φ) : RequestNode φ :=
  { node with state := if node.memo.isSome then .published else .vacant }

/-- Moves to a newer revision and supersedes the computations in progress. -/
def advanceTo (revision : Revision) : Outcome Unit × RequestEvaluatorGraph φ :=
  if revision ≤ graph.revision then
    (.error s!"compilation evaluator revision {revision} is not newer than {graph.revision}", graph)
  else if graph.generation = maxWord then
    -- The revision has already moved when the generation overflows.
    (.error "compilation evaluator generation overflow", { graph with revision := revision })
  else
    (.ok (), graph.active.foldl (fun graph node => graph.updateNode node supersede)
      { graph with revision := revision, generation := graph.generation + 1, active := [] })

def identity (graph : RequestEvaluatorGraph φ) (node : RequestNodeId) :
    Option (RequestNodeIdentity φ) :=
  graph.nodes[node]?.map RequestNode.identity

def memo (graph : RequestEvaluatorGraph φ) (node : RequestNodeId) : Option (RequestMemo φ) :=
  graph.nodes[node]?.bind RequestNode.memo

def dependencies (graph : RequestEvaluatorGraph φ) (node : RequestNodeId) :
    Option (List RequestNodeId) :=
  graph.nodes[node]?.map RequestNode.dependencies

def isCurrent (node : RequestNodeId) : Bool :=
  graph.nodes[node]?.any fun slot =>
    decide (slot.state = .published) && slot.memo.any fun memo => memo.verifiedAt = graph.revision

/-- The recorded dependents of a node. -/
def dependents (node : RequestNodeId) : List RequestNodeId :=
  (graph.nodes[node]?.map fun slot => slot.reverseDependents.toList).getD []

/-- Queue entries that a traversal can still produce. -/
def edgeCount : Nat :=
  ((List.range graph.nodes.length).map fun node => (graph.dependents node).length).sum

/-- The traversal of `reverse_cone`, with one unit of fuel for each queue entry. -/
def reverseCone (roots : List RequestNodeId) : Option (BTreeSet RequestNodeId) :=
  Worklist.explore graph.dependents (roots.length + graph.edgeCount) roots ∅

def register (identity : RequestNodeIdentity φ) :
    Outcome (RequestNodeId × RequestEvaluatorGraph φ) :=
  match graph.identities[identity]? with
  | some node =>
    .ok (node, graph.updateNode node fun slot =>
      if slot.state = .removed then { slot with state := .vacant } else slot)
  | none =>
    if 2 ^ 32 ≤ graph.nodes.length then .error "compilation request graph exceeds u32 nodes"
    else .ok (graph.nodes.length, { graph with
      identities := graph.identities.insert identity graph.nodes.length
      nodes := graph.nodes ++ [{
        identity := identity
        state := .vacant
        memo := none
        dependencies := []
        reverseDependents := ∅ }] })

/-- The message of a cycle: the computations from the repeated one, and itself again. -/
def cycleError (stackIndex : Nat) (repeated : RequestNodeId) : String :=
  let path := (graph.active.drop stackIndex).filterMap graph.identity ++
    (graph.identity repeated).toList
  "compilation request cycle: " ++ " -> ".intercalate (path.map toString)

/-- Whether a dependency is verified and has not changed since the given revision. -/
def unchangedSince (revision : Revision) (dependency : RequestNodeId) : Bool :=
  (graph.memo dependency).any fun memo =>
    decide (memo.verifiedAt = graph.revision) && decide (memo.changedAt ≤ revision)

/-- Whether a memo can be verified without executing the request. -/
def green (slot : RequestNode φ) (inputFingerprint : φ) : Bool :=
  slot.memo.any fun memo =>
    decide (memo.inputFingerprint = inputFingerprint) &&
      slot.dependencies.all (graph.unchangedSince memo.verifiedAt)

/-- A node whose memo is verified at the given revision. -/
def verifyNode (revision : Revision) (slot : RequestNode φ) : RequestNode φ :=
  { slot with
    memo := slot.memo.map fun memo =>
      { memo with verifiedAt := revision, dependenciesVerifiedAt := revision }
    state := .published }

def begin (node : RequestNodeId)
    (inputFingerprint : φ) : Outcome (RequestStart φ × RequestEvaluatorGraph φ) := do
  let slot ← okOr graph.nodes[node]? "compilation request node is missing"
  match slot.state with
  | .computing _ _ stackIndex => .error (graph.cycleError stackIndex node)
  | .removed => .error "removed compilation request was not re-registered"
  | _ =>
    match slot.memo.filter fun memo => memo.verifiedAt = graph.revision with
    | some memo =>
      reject (memo.inputFingerprint ≠ inputFingerprint)
        "compilation request input changed after publication in one revision"
      pure (.reused, graph)
    | none =>
      if graph.green slot inputFingerprint then
        pure (.reused, graph.updateNode node (verifyNode graph.revision))
      else
        let stackIndex := graph.active.length
        let started := graph.updateNode node fun slot =>
          { slot with state := .computing graph.revision graph.generation stackIndex }
        pure (.execute {
          node := node
          revision := graph.revision
          generation := graph.generation
          stackIndex := stackIndex
          inputFingerprint := inputFingerprint
          dependencies := []
          hadPublication := slot.memo.isSome },
          { started with active := graph.active ++ [node] })

variable (ticket : RequestEvaluationTicket φ)

def validateTicket : Outcome Unit := do
  reject (ticket.revision ≠ graph.revision ∨ ticket.generation ≠ graph.generation)
    "compilation evaluator rejected a superseded generation ticket"
  reject (graph.active[ticket.stackIndex]? ≠ some ticket.node ∨
      graph.active.length ≠ ticket.stackIndex + 1)
    "compilation request tickets must publish or abort in stack order"
  reject ((graph.nodes[ticket.node]?.map RequestNode.state) ≠
      some (.computing ticket.revision ticket.generation ticket.stackIndex))
    "compilation request ticket is not the active computation"

/-- The ticket after one more dependency. -/
def require (dependency : RequestNodeId) : Outcome (RequestEvaluationTicket φ) := do
  graph.validateTicket ticket
  reject (dependency = ticket.node) (graph.cycleError ticket.stackIndex dependency)
  let slot ← okOr graph.nodes[dependency]? "compilation evaluator dependency node is missing"
  match slot.state with
  | .computing _ _ stackIndex => .error (graph.cycleError stackIndex dependency)
  | _ =>
    reject (graph.isCurrent dependency = false)
      (match slot.memo with
      | some memo =>
        s!"compilation evaluator dependency is verified at revision {memo.verifiedAt}, " ++
          s!"expected {graph.revision}"
      | none => "compilation evaluator dependency has no published value")
    pure { ticket with dependencies := ticket.dependencies ++ [dependency] }

/-- Drops a dependent from the recorded dependents of a node. -/
def dropDependent (dependent : RequestNodeId) (graph : RequestEvaluatorGraph φ)
    (node : RequestNodeId) : RequestEvaluatorGraph φ :=
  graph.updateNode node fun slot =>
    { slot with reverseDependents := slot.reverseDependents.erase dependent }

/-- Adds a dependent to the recorded dependents of a node. -/
def addDependent (dependent : RequestNodeId) (graph : RequestEvaluatorGraph φ)
    (node : RequestNodeId) : RequestEvaluatorGraph φ :=
  graph.updateNode node fun slot =>
    { slot with reverseDependents := slot.reverseDependents.insert dependent }

/-- Takes the dependencies of a node and unlinks it from each of them. -/
def unlink (node : RequestNodeId) : RequestEvaluatorGraph φ :=
  ((graph.dependencies node).getD []).foldl (dropDependent node)
    (graph.updateNode node fun slot => { slot with dependencies := [] })

def replaceDependencies (node : RequestNodeId)
    (dependencies : List RequestNodeId) : RequestEvaluatorGraph φ :=
  (dependencies.foldl (addDependent node) (graph.unlink node)).updateNode node fun slot =>
    { slot with dependencies := dependencies }

/-- The memo of a publication, and whether its result changed. -/
def publishedMemo (resultFingerprint : φ) : Outcome (Bool × RequestMemo φ) :=
  match graph.memo ticket.node with
  | some memo =>
    memo.publish graph.revision graph.revision ticket.inputFingerprint resultFingerprint
  | none => .ok (true, .new graph.revision ticket.inputFingerprint resultFingerprint)

def publish (resultFingerprint : φ) : Outcome (Bool × RequestEvaluatorGraph φ) := do
  graph.validateTicket ticket
  let dependencies := ticket.sortedDependencies
  reject (ticket.node ∈ dependencies) "compilation evaluator request directly depends on itself"
  forM dependencies fun dependency =>
    reject (graph.isCurrent dependency = false)
      "compilation request dependency became stale before publication"
  let (changed, memo) ← graph.publishedMemo ticket resultFingerprint
  let linked := (graph.updateNode ticket.node fun slot =>
    { slot with memo := some memo }).replaceDependencies ticket.node dependencies
  let finished := linked.updateNode ticket.node fun slot => { slot with state := .published }
  pure (changed, { finished with active := graph.active.dropLast })

/-- The state of a request whose evaluation was given up. -/
def abortedState : RequestAbortReason → RequestNodeState
  | .failed => .failed graph.revision
  | .canceled => if ticket.hadPublication then .published else .vacant

def abort (reason : RequestAbortReason) : Outcome (RequestEvaluatorGraph φ) := do
  graph.validateTicket ticket
  let stopped := graph.updateNode ticket.node fun slot =>
    { slot with state := graph.abortedState ticket reason }
  pure { stopped with active := graph.active.dropLast }

/-- Removes one node: it depends on nothing and has no memo any more. -/
def removeNode (node : RequestNodeId) : RequestEvaluatorGraph φ :=
  (graph.unlink node).updateNode node fun slot =>
    if slot.state = .removed then slot else { slot with state := .removed, memo := none }

def removeNodes (nodes : List RequestNodeId) : Outcome (RequestEvaluatorGraph φ) := do
  reject (graph.active ≠ []) "cannot remove compilation requests while evaluation is active"
  pure (nodes.foldl removeNode graph)

end RequestEvaluatorGraph

end Graph

end BoonCircuit.CompilationDb
