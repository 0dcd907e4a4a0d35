import BoonCircuit.CompilationDb.Graph

/-!
# Typed requests and their callers

Each family of requests owns one table of keys and values; all tables share one
graph, and some changes of a table method stay when a later part of it fails.  The
rule of a request reads an input fingerprint and requires other requests one after
the other.  A caller of the database begins requests, follows their rules through the
tables and publishes the results, in any interleaving.
-/

namespace BoonCircuit.CompilationDb

open Lib

/-- One statically typed family of requests. -/
structure RequestFamily (φ : Type) where
  Key : Type
  Value : Type
  name : String
  keyFingerprint : Key → φ
  outputFingerprint : Value → Outcome φ
  [ordKey : Ord Key]
  [transKey : Std.TransOrd Key]
  [lawfulKey : Std.LawfulEqOrd Key]
  [decidableKey : DecidableEq Key]
  [showKey : ToString Key]

attribute [instance] RequestFamily.ordKey RequestFamily.transKey RequestFamily.lawfulKey
  RequestFamily.decidableKey RequestFamily.showKey

structure TypedRequestCell (ν : Type) where
  node : RequestNodeId
  value : Option ν

section Table

variable {φ : Type} [Fingerprint φ]

structure TypedRequestTable (family : RequestFamily φ) where
  cells : BTreeMap family.Key (TypedRequestCell family.Value)
  keysByNode : BTreeMap RequestNodeId family.Key

namespace TypedRequestTable

variable {family : RequestFamily φ}

def new : TypedRequestTable family where
  cells := ∅
  keysByNode := ∅

omit [Fingerprint φ] in
/-- The node identity of a key. -/
def identityOf (family : RequestFamily φ) (key : family.Key) : RequestNodeIdentity φ where
  family := family.name
  keyFingerprint := family.keyFingerprint key

def ensureNode (graph : RequestEvaluatorGraph φ) (table : TypedRequestTable family)
    (key : family.Key) :
    Outcome RequestNodeId × RequestEvaluatorGraph φ × TypedRequestTable family :=
  match table.cells[key]? with
  | some cell => (.ok cell.node, graph, table)
  | none =>
    match graph.register (identityOf family key) with
    | .error error => (.error error, graph, table)
    | .ok (node, graph) =>
      match table.keysByNode[node]?.filter fun previous => previous ≠ key with
      | some previous =>
        (.error (s!"request family {family.name} key fingerprint collision between " ++
          s!"{previous} and {key}"), graph, table)
      | none =>
        (.ok node, graph, {
          cells := table.cells.insert key ⟨node, none⟩
          keysByNode := table.keysByNode.insert node key })

def begin (graph : RequestEvaluatorGraph φ) (table : TypedRequestTable family)
    (key : family.Key) (inputFingerprint : φ) :
    Outcome (RequestStart φ) × RequestEvaluatorGraph φ × TypedRequestTable family :=
  match ensureNode graph table key with
  | (.error error, graph, table) => (.error error, graph, table)
  | (.ok node, graph, table) =>
    match graph.begin node inputFingerprint with
    | .error error => (.error error, graph, table)
    | .ok (start, graph) => (.ok start, graph, table)

/-- The required value, and the ticket with what it captured. -/
def require (graph : RequestEvaluatorGraph φ) (table : TypedRequestTable family)
    (ticket : RequestEvaluationTicket φ) (key : family.Key) :
    Outcome family.Value × RequestEvaluationTicket φ :=
  match table.cells[key]? with
  | none => (.error s!"request family {family.name} dependency key is absent", ticket)
  | some cell =>
    match graph.require ticket cell.node with
    | .error error => (.error error, ticket)
    | .ok ticket =>
      match cell.value with
      | some value => (.ok value, ticket)
      | none => (.error s!"request family {family.name} dependency has no typed value", ticket)

/-- A cell after a publication: an unchanged result keeps the value it has. -/
def storeValue (changed : Bool) (value : family.Value) (cell : TypedRequestCell family.Value) :
    TypedRequestCell family.Value :=
  if changed || cell.value.isNone then { cell with value := some value } else cell

def publish (graph : RequestEvaluatorGraph φ) (table : TypedRequestTable family)
    (ticket : RequestEvaluationTicket φ) (value : family.Value) :
    Outcome Unit × RequestEvaluatorGraph φ × TypedRequestTable family :=
  match table.keysByNode[ticket.node]? with
  | none => (.error s!"request family {family.name} ticket has no typed key", graph, table)
  | some key =>
    match family.outputFingerprint value with
    | .error error =>
      match graph.abort ticket .failed with
      | .error stale => (.error stale, graph, table)
      | .ok graph => (.error error, graph, table)
    | .ok resultFingerprint =>
      match graph.publish ticket resultFingerprint with
      | .error error => (.error error, graph, table)
      | .ok (changed, graph) =>
        (.ok (), graph, { table with
          cells := table.cells.modify key (storeValue changed value) })

def currentValue (graph : RequestEvaluatorGraph φ) (table : TypedRequestTable family)
    (key : family.Key) : Outcome (Option family.Value) := do
  Checks.reject (graph.active ≠ [])
    (s!"request family {family.name} cannot read a current value during evaluation; " ++
      "use require")
  match table.cells[key]? with
  | none => pure none
  | some cell => pure (if graph.isCurrent cell.node then cell.value else none)

/-- Removes one key with its node. -/
def removeKey (table : TypedRequestTable family)
    (entry : family.Key × TypedRequestCell family.Value) : TypedRequestTable family where
  cells := table.cells.erase entry.1
  keysByNode := table.keysByNode.erase entry.2.node

def retain (graph : RequestEvaluatorGraph φ) (table : TypedRequestTable family)
    (keep : family.Key → Bool) :
    Outcome Unit × RequestEvaluatorGraph φ × TypedRequestTable family :=
  let removed := table.cells.toList.filter fun entry => !keep entry.1
  match graph.removeNodes (removed.map fun entry => entry.2.node) with
  | .error error => (.error error, graph, table)
  | .ok graph => (.ok (), graph, removed.foldl removeKey table)

end TypedRequestTable

end Table

section Requests

variable {ι φ : Type}

/-- What is left of a rule: a result, or a required request and what to do with its value. -/
inductive Computation (families : ι → RequestFamily φ) (α : Type) : Type
  | done (value : α)
  | require (family : ι) (key : (families family).Key)
      (next : (families family).Value → Computation families α)

/-- The rule of every request. -/
abbrev Rules (families : ι → RequestFamily φ) : Type :=
  (family : ι) → (families family).Key → φ → Computation families (families family).Value

/-- The input fingerprint of every request. -/
abbrev Inputs (families : ι → RequestFamily φ) : Type :=
  (family : ι) → (families family).Key → φ

variable {families : ι → RequestFamily φ}

/-- A computation ends with a value when its requirements are evaluated from scratch. -/
inductive Runs (rules : Rules families) (inputs : Inputs families) :
    {family : ι} → Computation families (families family).Value → (families family).Value → Prop
  | done {family : ι} {value : (families family).Value} : Runs rules inputs (.done value) value
  | require {family required : ι} {key : (families required).Key}
      {next : (families required).Value → Computation families (families family).Value}
      {answer : (families required).Value} {value : (families family).Value}
      (answered : Runs rules inputs (rules required key (inputs required key)) answer)
      (finished : Runs rules inputs (next answer) value) :
      Runs rules inputs (.require required key next) value

/-- A request evaluates from scratch to a value. -/
def Evaluates (rules : Rules families) (inputs : Inputs families) (family : ι)
    (key : (families family).Key) (value : (families family).Value) : Prop :=
  Runs rules inputs (rules family key (inputs family key)) value

variable {rules : Rules families} {inputs : Inputs families} {family : ι}
  {computation : Computation families (families family).Value}
  {first second : (families family).Value}

theorem Runs.unique (firstRun : Runs rules inputs computation first)
    (secondRun : Runs rules inputs computation second) : first = second := by
  induction firstRun with
  | done =>
    cases secondRun
    rfl
  | require _ _ answer_unique value_unique =>
    cases secondRun with
    | require answered finished =>
      obtain rfl := answer_unique answered
      exact value_unique finished

theorem Evaluates.unique {key : (families family).Key}
    (firstRun : Evaluates rules inputs family key first)
    (secondRun : Evaluates rules inputs family key second) : first = second :=
  Runs.unique firstRun secondRun

/-- One answered requirement. -/
structure Answer (families : ι → RequestFamily φ) where
  family : ι
  key : (families family).Key
  value : (families family).Value

/-- A computation that got some answers and has come to the second computation. -/
inductive Follows {α : Type} (computation : Computation families α) :
    List (Answer families) → Computation families α → Prop
  | start : Follows computation [] computation
  | answer {answers : List (Answer families)} {family : ι} {key : (families family).Key}
      {next : (families family).Value → Computation families α}
      (before : Follows computation answers (.require family key next))
      (value : (families family).Value) :
      Follows computation (answers ++ [⟨family, key, value⟩]) (next value)

theorem Follows.runs {residual : Computation families (families family).Value}
    {answers : List (Answer families)} {value : (families family).Value}
    (follows : Follows computation answers residual)
    (answered : ∀ answer ∈ answers, Evaluates rules inputs answer.family answer.key answer.value)
    (finished : Runs rules inputs residual value) : Runs rules inputs computation value := by
  induction follows with
  | start => exact finished
  | answer before answerValue ih =>
    apply ih
    · exact fun answer member => answered answer (List.mem_append_left _ member)
    · exact .require (answered _ (List.mem_append_right _ List.mem_cons_self)) finished

/-- A ticket, the request it was issued for and what is left of its rule. -/
structure Issued (families : ι → RequestFamily φ) where
  ticket : RequestEvaluationTicket φ
  family : ι
  key : (families family).Key
  residual : Computation families (families family).Value

variable [Fingerprint φ]

/-- The shared graph, one table for each family, and the tickets that callers hold. -/
structure World (families : ι → RequestFamily φ) [Fingerprint φ] where
  graph : RequestEvaluatorGraph φ
  tables : (family : ι) → TypedRequestTable (families family)
  issued : List (Issued families)

namespace World

def new (revision : Revision) : World families where
  graph := .new revision
  tables _ := .new
  issued := []

variable [DecidableEq ι]

/-- The world after a method of one table. -/
def replace (world : World families) (family : ι) (graph : RequestEvaluatorGraph φ)
    (table : TypedRequestTable (families family)) : World families where
  graph := graph
  tables := Function.update world.tables family table
  issued := world.issued

/-- The world with one more ticket; earlier copies of a ticket stay usable. -/
def issue (world : World families) (issued : Issued families) : World families :=
  { world with issued := world.issued ++ [issued] }

end World

section Steps

variable [DecidableEq ι]

/-- One call.  The inputs of a revision are fixed.  A ticket can require anything, but
only the value that its rule requires next takes the rule a step further, and only
results of finished rules are published. -/
inductive Step (rules : Rules families) (inputs : Revision → Inputs families) :
    World families → World families → Prop
  | advanceTo (world : World families) (revision : Revision) :
      Step rules inputs world { world with graph := (world.graph.advanceTo revision).2 }
  | reuse (world : World families) (family : ι) (key : (families family).Key)
      {outcome : Outcome (RequestStart φ)} {graph : RequestEvaluatorGraph φ}
      {table : TypedRequestTable (families family)}
      (begun : (world.tables family).begin world.graph key
        (inputs world.graph.revision family key) = (outcome, graph, table))
      (idle : ∀ ticket, outcome ≠ .ok (.execute ticket)) :
      Step rules inputs world (world.replace family graph table)
  | execute (world : World families) (family : ι) (key : (families family).Key)
      {ticket : RequestEvaluationTicket φ} {graph : RequestEvaluatorGraph φ}
      {table : TypedRequestTable (families family)}
      (begun : (world.tables family).begin world.graph key
        (inputs world.graph.revision family key) = (.ok (.execute ticket), graph, table)) :
      Step rules inputs world ((world.replace family graph table).issue
        ⟨ticket, family, key, rules family key (inputs world.graph.revision family key)⟩)
  | require (world : World families) {ticket captured : RequestEvaluationTicket φ} {family : ι}
      {key : (families family).Key} {required : ι} {dependency : (families required).Key}
      {next : (families required).Value → Computation families (families family).Value}
      {value : (families required).Value}
      (held : ⟨ticket, family, key, .require required dependency next⟩ ∈ world.issued)
      (answered : (world.tables required).require world.graph ticket dependency =
        (.ok value, captured)) :
      Step rules inputs world (world.issue ⟨captured, family, key, next value⟩)
  | ignore (world : World families) {ticket captured : RequestEvaluationTicket φ} {family : ι}
      {key : (families family).Key} {residual : Computation families (families family).Value}
      {required : ι} {dependency : (families required).Key}
      {outcome : Outcome (families required).Value}
      (held : ⟨ticket, family, key, residual⟩ ∈ world.issued)
      (answered : (world.tables required).require world.graph ticket dependency =
        (outcome, captured)) :
      Step rules inputs world (world.issue ⟨captured, family, key, residual⟩)
  | publish (world : World families) {ticket : RequestEvaluationTicket φ} {family : ι}
      {key : (families family).Key} {value : (families family).Value}
      {outcome : Outcome Unit} {graph : RequestEvaluatorGraph φ}
      {table : TypedRequestTable (families family)}
      (held : ⟨ticket, family, key, .done value⟩ ∈ world.issued)
      (published : (world.tables family).publish world.graph ticket value =
        (outcome, graph, table)) :
      Step rules inputs world (world.replace family graph table)
  | misdirect (world : World families) {issued : Issued families} {family : ι}
      {value : (families family).Value} {outcome : Outcome Unit}
      {graph : RequestEvaluatorGraph φ} {table : TypedRequestTable (families family)}
      (held : issued ∈ world.issued) (foreign : family ≠ issued.family)
      (published : (world.tables family).publish world.graph issued.ticket value =
        (outcome, graph, table)) :
      Step rules inputs world (world.replace family graph table)
  | abort (world : World families) {issued : Issued families} {reason : RequestAbortReason}
      {graph : RequestEvaluatorGraph φ} (held : issued ∈ world.issued)
      (aborted : world.graph.abort issued.ticket reason = .ok graph) :
      Step rules inputs world { world with graph := graph }
  | retain (world : World families) (family : ι) (keep : (families family).Key → Bool)
      {outcome : Outcome Unit} {graph : RequestEvaluatorGraph φ}
      {table : TypedRequestTable (families family)}
      (retained : (world.tables family).retain world.graph keep = (outcome, graph, table)) :
      Step rules inputs world (world.replace family graph table)

/-- A world that some sequence of calls reaches from an empty database. -/
def Reached (rules : Rules families) (inputs : Revision → Inputs families)
    (world : World families) : Prop :=
  ∃ start, Relation.ReflTransGen (Step rules inputs) (World.new start) world

end Steps

end Requests

end BoonCircuit.CompilationDb
