import BoonCircuit.Executor.Delivery
import BoonCircuit.Executor.FailedTurn
import BoonCircuit.Lib.Enumeration

/-!
# Routes of source events

A token names the owner, the source and the binding epoch of a route.  Every rejected
event is rolled back, and the rollback binds all sources anew: those of the root in the
order of the plan, and then those of the rows, list by list.  A token survives exactly
when its epoch is the place of its binding in this enumeration.
-/

namespace BoonCircuit.Executor

open List hiding getElem?_insert
open Lib MachineInstance BTreeMap Std

variable {V S : Type} [RuntimeValue V]

section Places

variable {other : MachineInstance V S} {owner : Option RowId} {start : UInt64} {count : Nat}

/-- The epoch of a source at the root or in a row. -/
def MachineInstance.epochAt (machine : MachineInstance V S) :
    Option RowId → SourceId → Option UInt64
  | none, source => machine.rootSourceBindings[source]?
  | some row, source => (machine.row? row).bind fun content => content.bindings[source]?

theorem MachineInstance.epochAt_congr {machine : MachineInstance V S}
    {source : SourceId} (lists : machine.lists = other.lists)
    (roots : machine.rootSourceBindings = other.rootSourceBindings) :
    machine.epochAt owner source = other.epochAt owner source := by
  cases owner with
  | none =>
    unfold epochAt
    rw [roots]
  | some row =>
    unfold epochAt row?
    rw [lists]

/-- The sources that rows bind, in the order in which a rollback binds them. -/
def MachineInstance.rowPlaces (plan : Plan V S) (machine : MachineInstance V S) :
    List (RowId × SourceId) :=
  machine.orderedRows.flatMap fun row => (plan.scopedSources (plan.scopeOf row)).map (row, ·)

/-- The bindings of a machine in the order in which a rollback makes them. -/
def MachineInstance.bindingPlaces (plan : Plan V S) (machine : MachineInstance V S) :
    List (Option RowId × SourceId) :=
  plan.rootSources.map (none, ·) ++
    (machine.rowPlaces plan).map fun place => (some place.1, place.2)

/-- The epoch that a rollback gives to the binding at a place. -/
def epochOfPlace (place : Nat) : UInt64 :=
  UInt64.ofNat (min (place + 1) (2 ^ 64 - 1))

theorem toNat_epochOfPlace {place : Nat} :
    (epochOfPlace place).toNat = min (place + 1) (2 ^ 64 - 1) :=
  UInt64.toNat_ofNat_of_lt' (by change min _ _ < 2 ^ 64; omega)

theorem toNat_iterate_succ (room : start.toNat + count < 2 ^ 64) :
    ((· + 1)^[count] start).toNat = start.toNat + count := by
  induction count with
  | zero => rfl
  | succ count ih =>
    rw [Function.iterate_succ_apply', UInt64.toNat_add, UInt64.toNat_one]
    omega

theorem toNat_saturatingAdd_one {number : UInt64} :
    (saturatingAdd number 1).toNat = min (number.toNat + 1) (2 ^ 64 - 1) := by
  unfold saturatingAdd
  split
  · next room =>
      rw [UInt64.toNat_one] at room
      rw [UInt64.toNat_add, UInt64.toNat_one]
      omega
  · next full =>
      rw [UInt64.toNat_one] at full
      change 18446744073709551615 = _
      omega

theorem toNat_iterate_saturatingAdd :
    ((saturatingAdd · 1)^[count] start).toNat = min (start.toNat + count) (2 ^ 64 - 1) := by
  induction count with
  | zero =>
    have bound := start.toNat_lt
    change start.toNat = _
    omega
  | succ count ih =>
    rw [Function.iterate_succ_apply', toNat_saturatingAdd_one]
    omega

variable {machine : MachineInstance V S} {plan : Plan V S} {row id : RowId} {source : SourceId}
  {rows : List RowId}

theorem MachineInstance.row?_modifyRow {edit : Row V → Row V} :
    (machine.modifyRow row edit).row? id =
      if row = id then (machine.row? id).map edit else machine.row? id := by
  unfold row? modifyRow
  rw [getElem?_modifyList]
  by_cases same : row = id
  · subst same
    rw [if_pos rfl, if_pos rfl]
    cases machine.lists[row.list]? with
    | none => rfl
    | some => exact getElem?_modify.trans (if_pos rfl)
  · rw [if_neg same]
    split
    · cases machine.lists[id.list]? with
      | none => rfl
      | some => exact getElem?_modify.trans (if_neg same)
    · rfl

theorem numbers_bindRoots : Numbers
    (fun (machine : MachineInstance V S) source => { machine with
      rootSourceBindings := machine.rootSourceBindings.insert source machine.nextBindingId
      nextBindingId := machine.nextBindingId + 1 })
    (fun machine source => machine.epochAt none source) MachineInstance.nextBindingId (· + 1)
    (fun _ _ => True) where
  writable_step := id
  counter_step := rfl
  lookup_step _ := getElem?_insert

theorem numbers_bindRows : Numbers
    (fun (machine : MachineInstance V S) (place : RowId × SourceId) =>
      machine.bindSource place.1 place.2)
    (fun machine place => machine.epochAt (some place.1) place.2) MachineInstance.nextBindingId
    (saturatingAdd · 1) (fun machine place => (machine.row? place.1).isSome) where
  writable_step present := isSome_row?_modifyRow.trans present
  counter_step := rfl
  lookup_step {machine place other} present := by
    obtain ⟨_, found⟩ := Option.isSome_iff_exists.mp present
    have edited : (machine.bindSource place.1 place.2).row? other.1 = if place.1 = other.1 then
        (machine.row? other.1).map fun state =>
          { state with bindings := state.bindings.insert place.2 machine.nextBindingId }
        else machine.row? other.1 := row?_modifyRow
    unfold epochAt
    dsimp only
    rw [edited]
    obtain ⟨row, _⟩ := place
    obtain ⟨id, _⟩ := other
    by_cases same : row = id
    · subst same
      rw [if_pos rfl, found, Option.map_some, Option.bind_some, getElem?_insert]
      simp
    · rw [if_neg same, if_neg fun equal => same (congrArg Prod.fst equal)]

theorem MachineInstance.bindRows_eq_foldl :
    machine.bindRows plan rows = (rows.flatMap fun row =>
      (plan.scopedSources (plan.scopeOf row)).map (row, ·)).foldl
        (fun machine place => machine.bindSource place.1 place.2) machine := by
  unfold bindRows bindSources
  rw [foldl_flatMap]
  simp only [foldl_map]

omit [RuntimeValue V] in
theorem Plan.nodup_filter_routes (plan : Plan V S) (chosen : SourceId × SourceRoute → Bool) :
    ((plan.routes.toList.filter chosen).map Prod.fst).Nodup := by
  have keys : (plan.routes.toList.map Prod.fst).Nodup := by
    rw [ExtTreeMap.map_fst_toList_eq_keys]
    exact ExtTreeMap.nodup_keys
  exact keys.sublist (filter_sublist.map _)

/-- The order of the lists runs through every row once. -/
structure MachineInstance.Listed (machine : MachineInstance V S) : Prop where
  nodup : machine.orderedRows.Nodup
  mem_iff : ∀ {row : RowId}, row ∈ machine.orderedRows ↔ (machine.row? row).isSome

theorem MachineInstance.WellFormed.listed (wellFormed : machine.WellFormed) : machine.Listed where
  nodup := by
    apply nodup_flatMap.mpr
    constructor
    · rintro ⟨id, list⟩ member
      exact (wellFormed.lists (mem_toList_iff.mp member)).nodup
    · apply List.Pairwise.imp_of_mem _ ExtTreeMap.distinct_keys_toList
      rintro ⟨_, list⟩ ⟨_, _⟩ member otherMember apart row inFirst inSecond
      have listId : ∀ {id : ListId} {list : ListState V}, (id, list) ∈ machine.lists.toList →
          row ∈ list.order.rows → row.list = id := by
        intro id list member inOrder
        have wellFormed := wellFormed.lists (mem_toList_iff.mp member)
        obtain ⟨content, found⟩ := mem_iff_exists.mp (wellFormed.mem_order.mp inOrder)
        exact (wellFormed.owned found).1
      apply apart
      rw [← listId member inFirst, ← listId otherMember inSecond]
      exact ReflCmp.compare_self
  mem_iff {row} := by
    unfold orderedRows row?
    rw [mem_flatMap]
    constructor
    · rintro ⟨⟨id, list⟩, member, inOrder⟩
      have found := mem_toList_iff.mp member
      have wellFormed := wellFormed.lists found
      obtain ⟨content, present⟩ := mem_iff_exists.mp (wellFormed.mem_order.mp inOrder)
      obtain rfl := (wellFormed.owned present).1
      rw [found, Option.bind_some, present]
      rfl
    · intro present
      obtain ⟨content, found⟩ := Option.isSome_iff_exists.mp present
      obtain ⟨list, isList, isRow⟩ := Option.bind_eq_some_iff.mp found
      refine ⟨(row.list, list), mem_toList isList, ?_⟩
      exact (wellFormed.lists isList).mem_order.mpr (mem_iff_exists.mpr ⟨content, isRow⟩)

theorem MachineInstance.orderedRows_of_turnState
    (same : machine.turnState.lists = other.turnState.lists) :
    machine.orderedRows = other.orderedRows := by
  have known : ∀ machine : MachineInstance V S, machine.orderedRows =
      machine.turnState.lists.toList.flatMap fun list => list.2.order.rows := by
    intro machine
    unfold orderedRows turnState
    rw [ExtTreeMap.toList_map, flatMap_map]
    rfl
  rw [known, known, same]

theorem MachineInstance.Listed.of_turnState (listed : other.Listed)
    (same : machine.turnState.lists = other.turnState.lists) : machine.Listed where
  nodup := orderedRows_of_turnState same ▸ listed.nodup
  mem_iff {row} := by
    rw [orderedRows_of_turnState same, listed.mem_iff, isSome_row?_of_turnState same]

theorem MachineInstance.Listed.nodup_rowPlaces (listed : machine.Listed) :
    (machine.rowPlaces plan).Nodup := by
  apply nodup_flatMap.mpr
  constructor
  · intro row _
    exact (plan.nodup_filter_routes _).map fun _ _ same => congrArg Prod.snd same
  · apply List.Pairwise.imp _ listed.nodup
    rintro _ _ apart ⟨row, _⟩ inFirst inSecond
    obtain ⟨_, _, isFirst⟩ := mem_map.mp inFirst
    obtain ⟨_, _, isSecond⟩ := mem_map.mp inSecond
    exact apart ((congrArg Prod.fst isFirst).trans (congrArg Prod.fst isSecond).symm)

theorem MachineInstance.row?_clearBindings :
    (machine.clearBindings rows).row? id = if id ∈ rows then
      (machine.row? id).map fun state => { state with bindings := ∅ } else machine.row? id := by
  unfold clearBindings
  induction rows generalizing machine with
  | nil => rfl
  | cons row rows ih =>
    rw [foldl_cons, ih, row?_modifyRow]
    by_cases same : row = id <;> by_cases member : id ∈ rows
    · simp [same, Function.comp_def]
    · simp [same, member]
    · simp [member, same]
    · simp [Ne.symm same, same]

theorem MachineInstance.bindings_clearBindings :
    (machine.clearBindings rows).rootSourceBindings = machine.rootSourceBindings ∧
      (machine.clearBindings rows).nextBindingId = machine.nextBindingId := by
  constructor
  · apply Checks.foldl_view rootSourceBindings
    exact fun _ _ => rfl
  · apply Checks.foldl_view nextBindingId
    exact fun _ _ => rfl

theorem MachineInstance.rootSourceBindings_bindRows :
    (machine.bindRows plan rows).rootSourceBindings = machine.rootSourceBindings := by
  rw [bindRows_eq_foldl]
  apply Checks.foldl_view rootSourceBindings
  exact fun _ _ => rfl

/-- The root before it is bound anew. -/
def MachineInstance.fresh (machine : MachineInstance V S) : MachineInstance V S :=
  { machine with nextBindingId := 1 }.unrooted

theorem MachineInstance.epochAt_rebound_none : (machine.rebound plan).epochAt none source =
    if source ∈ plan.rootSources then some (epochOfPlace (plan.rootSources.idxOf source))
    else none := by
  unfold rebound epochAt
  rw [rootSourceBindings_bindRows, bindings_clearBindings.1]
  change (machine.fresh.bindRoots plan.rootSources).epochAt none source = _
  have few := plan.length_rootSources_lt
  split
  · next member =>
      have place := idxOf_lt_length_of_mem member
      have distinct : plan.rootSources.Nodup := plan.nodup_filter_routes _
      refine (numbers_bindRoots.lookup_foldl_of_mem (fun _ _ => trivial) distinct member).trans
        (congrArg some ?_)
      apply UInt64.toNat_inj.mp
      rw [toNat_epochOfPlace]
      refine (toNat_iterate_succ (by change 1 + _ < _; omega)).trans ?_
      change 1 + _ = _
      omega
  · next missing =>
      refine (numbers_bindRoots.lookup_foldl_of_notMem (fun _ _ => trivial) missing).trans ?_
      exact ExtTreeMap.getElem?_empty

theorem MachineInstance.Listed.epochAt_rebound_some (listed : machine.Listed) :
    (machine.rebound plan).epochAt (some row) source =
      if (row, source) ∈ machine.rowPlaces plan then some (epochOfPlace
        (plan.rootSources.length + (machine.rowPlaces plan).idxOf (row, source)))
      else none := by
  have few := plan.length_rootSources_lt
  unfold rebound
  rw [bindRows_eq_foldl]
  change epochAt ((machine.rowPlaces plan).foldl _
    ((machine.fresh.bindRoots plan.rootSources).clearBindings machine.orderedRows)) _ _ = _
  generalize started : (machine.fresh.bindRoots plan.rootSources).clearBindings
    machine.orderedRows = start
  have counter : start.nextBindingId.toNat = 1 + plan.rootSources.length := by
    rw [← started, bindings_clearBindings.2, nextBindingId_bindRoots (by change 1 + _ < _; omega)]
    rfl
  have present : ∀ id, (start.row? id).isSome = (machine.row? id).isSome := by
    intro id
    rw [← started, isSome_row?_clearBindings]
    unfold row?
    rw [lists_bindRoots]
    rfl
  have writable : ∀ place ∈ machine.rowPlaces plan, (start.row? place.1).isSome := by
    intro place member
    obtain ⟨row, inOrder, isPlace⟩ := mem_flatMap.mp member
    obtain ⟨_, _, rfl⟩ := mem_map.mp isPlace
    rw [present]
    exact listed.mem_iff.mp inOrder
  split
  · next member =>
      refine (numbers_bindRows.lookup_foldl_of_mem writable listed.nodup_rowPlaces member).trans
        (congrArg some ?_)
      apply UInt64.toNat_inj.mp
      rw [toNat_epochOfPlace]
      refine toNat_iterate_saturatingAdd.trans ?_
      omega
  · next missing =>
      refine (numbers_bindRows.lookup_foldl_of_notMem writable missing).trans ?_
      change (start.row? row).bind (fun content => content.bindings[source]?) = none
      cases found : start.row? row with
      | none => rfl
      | some =>
        have inOrder : row ∈ machine.orderedRows :=
          listed.mem_iff.mpr ((present row).symm.trans (found ▸ rfl))
        rw [← started, row?_clearBindings, if_pos inOrder] at found
        obtain ⟨_, _, rfl⟩ := Option.map_eq_some_iff.mp found
        exact ExtTreeMap.getElem?_empty

theorem MachineInstance.Listed.epochAt_rebound (listed : machine.Listed) :
    (machine.rebound plan).epochAt owner source =
      if (owner, source) ∈ machine.bindingPlaces plan then
        some (epochOfPlace ((machine.bindingPlaces plan).idxOf (owner, source)))
      else none := by
  unfold bindingPlaces
  have rows : Function.Injective fun place : RowId × SourceId => (some place.1, place.2) := by
    rintro ⟨_, _⟩ ⟨_, _⟩ same
    cases same
    rfl
  have roots : Function.Injective fun source : SourceId => ((none : Option RowId), source) :=
    fun _ _ same => congrArg Prod.snd same
  cases owner with
  | none =>
    have places : (none, source) ∈ plan.rootSources.map ((none : Option RowId), ·) ++
        ((machine.rowPlaces plan).map fun place => (some place.1, place.2)) ↔
          source ∈ plan.rootSources := by
      simp
    rw [epochAt_rebound_none]
    simp only [places]
    split
    · next member => rw [idxOf_append_of_mem (mem_map_of_mem member), idxOf_map roots]
    · rfl
  | some row =>
    have places : (some row, source) ∈ plan.rootSources.map ((none : Option RowId), ·) ++
        ((machine.rowPlaces plan).map fun place => (some place.1, place.2)) ↔
          (row, source) ∈ machine.rowPlaces plan := by
      simp
    rw [listed.epochAt_rebound_some]
    simp only [places]
    split
    · have apart : (some row, source) ∉ plan.rootSources.map ((none : Option RowId), ·) := by
        simp
      have place : ((machine.rowPlaces plan).map fun place => (some place.1, place.2)).idxOf
          (some row, source) = (machine.rowPlaces plan).idxOf (row, source) :=
        idxOf_map rows (row, source)
      rw [idxOf_append_of_notMem apart, place, length_map]
    · rfl

end Places

open Checks Action Mutation

/-- The static owner of what is outside every repeated scope. -/
def PlanStaticOwnerId.root : PlanStaticOwnerId :=
  2 ^ 64 - 1

namespace OwnerInstance

def validate (owner : OwnerInstance) : Except String Unit := do
  reject (owner.staticOwner = PlanStaticOwnerId.root ∧ owner.ancestry ≠ [])
    "root owner instance cannot have ancestor rows"
  reject (∃ row ∈ owner.ancestry, row.generation = 0)
    "owner instance row generations must be positive"

def new (staticOwner : PlanStaticOwnerId) (ancestry : Ancestry) : Except String OwnerInstance := do
  let owner : OwnerInstance := ⟨staticOwner, ancestry⟩
  owner.validate
  pure owner

/-- The generation of the innermost row, or zero. -/
def leafGeneration (owner : OwnerInstance) : UInt64 :=
  (owner.ancestry.getLast?.map RowId.generation).getD 0

end OwnerInstance

structure SourceRouteToken where
  programRevision : UInt64
  owner : OwnerInstance
  source : SourceId
  /-- Zero for a route of the root, else the generation of the innermost row. -/
  rowGeneration : UInt64
  bindingEpoch : UInt64
  deriving DecidableEq

namespace SourceRouteToken

def validate (route : SourceRouteToken) : Except String Unit := do
  reject (route.programRevision = 0) "source route program revision must be positive"
  reject (route.bindingEpoch = 0) "source route binding epoch must be positive"
  route.owner.validate
  reject (route.rowGeneration ≠ route.owner.leafGeneration)
    "source route row generation does not match its owner"

def new (programRevision : UInt64) (owner : OwnerInstance) (source : SourceId)
    (bindingEpoch : UInt64) : Except String SourceRouteToken := do
  let route : SourceRouteToken :=
    ⟨programRevision, owner, source, owner.leafGeneration, bindingEpoch⟩
  route.validate
  pure route

end SourceRouteToken

namespace MachineInstance

/-- The owner rows of a source exist and lie in the lists that the plan names. -/
def checkOwnerRows (machine : MachineInstance V S) (source : SourceId)
    (rows : List (ListId × RowId)) : Except Error Unit :=
  rows.forM fun entry => do
    reject (entry.2.list ≠ entry.1) (Error.invalidEvent ("source " ++ toString source ++
      " owner row list " ++ toString entry.2.list ++ " does not match plan list " ++
      toString entry.1))
    reject ((machine.row? entry.2).isSome = false) (Error.invalidEvent ("source " ++
      toString source ++ " owner row " ++ entry.2.text ++ " does not exist"))

def sourceRouteTokenIfBound (plan : Plan V S) (machine : MachineInstance V S) (source : SourceId)
    (ancestors : List RowId) : Except Error (Option SourceRouteToken) := do
  let route ← okOr plan.routes[source]?
    (Error.invalidEvent ("source " ++ toString source ++ " is not in the plan"))
  reject (route.ancestors.length ≠ ancestors.length) (Error.invalidEvent ("source " ++
    toString source ++ " requires " ++ toString route.ancestors.length ++
    " owner rows, received " ++ toString ancestors.length))
  machine.checkOwnerRows source (route.ancestors.zip ancestors)
  (machine.epochAt ancestors.getLast? source).mapM fun bindingEpoch => do
    let owner ← (OwnerInstance.new route.staticOwner ancestors).mapError Error.invalidPlan
    (SourceRouteToken.new plan.programRevision owner source bindingEpoch).mapError
      Error.invalidEvent

def sourceRouteToken (plan : Plan V S) (machine : MachineInstance V S) (source : SourceId)
    (ancestors : List RowId) : Except Error SourceRouteToken := do
  let bound ← machine.sourceRouteTokenIfBound plan source ancestors
  okOr bound (Error.invalidEvent (match ancestors.getLast? with
    | some row => "source " ++ toString source ++ " is not bound to owner row " ++ row.text
    | none => "source " ++ toString source ++ " has no root binding"))

/-- The row that a current token leads to. -/
def validateCurrentSourceRoute (plan : Plan V S) (machine : MachineInstance V S)
    (route : SourceRouteToken) : Except Error (Option RowId) := do
  route.validate.mapError Error.invalidEvent
  reject (route.programRevision ≠ plan.programRevision) (Error.invalidEvent ("route revision " ++
    toString route.programRevision ++ " is stale; active revision is " ++
    toString plan.programRevision))
  let expected ← machine.sourceRouteToken plan route.source route.owner.ancestry
  reject (expected ≠ route)
    (Error.invalidEvent "source route owner, generation, or binding epoch is stale")
  pure route.owner.ancestry.getLast?

end MachineInstance

/-- An event without its payload, which only the evaluator reads. -/
structure SourceEvent where
  sequence : UInt64
  route : SourceRouteToken
  source : SourceId
  target : Option RowId

namespace MachineInstance

def validateEventRoute (plan : Plan V S) (machine : MachineInstance V S) (event : SourceEvent) :
    Except Error Unit := do
  reject (event.route.source ≠ event.source) (Error.invalidEvent ("route source " ++
    toString event.route.source ++ " does not match event source " ++ toString event.source))
  let target ← machine.validateCurrentSourceRoute plan event.route
  reject (target ≠ event.target)
    (Error.invalidEvent "event target does not match its complete owner route")

def validateEvent (plan : Plan V S) (machine : MachineInstance V S) (event : SourceEvent) :
    Except Error Unit := do
  reject (plan.requireMonotonicSequences = true ∧
      machine.lastSequence.any (fun last => event.sequence ≤ last) = true)
    (Error.invalidEvent ("sequence " ++ toString event.sequence ++ " must be greater than " ++
      toString (machine.lastSequence.getD 0)))
  machine.validateEventRoute plan event

end MachineInstance

/-- One event with the reaction of the program to it. -/
def eventTurn (plan : Plan V S) (event : SourceEvent) (reaction : Reaction V S) :
    Step V S Unit := do
  let session ← get
  attempt (session.machine.validateEvent plan event)
  reaction.mutations.forM (Mutation.apply plan)
  attempt reaction.durableChanges
  modifyMachine fun machine => { machine with lastSequence := some event.sequence }
  let session ← get
  let sequence ← attempt session.machine.nextInternalTurnSequence
  modifyMachine fun machine => { machine with turnSequence := sequence }
  commitTransientEffects plan
  attempt reaction.report

def applyEvent (plan : Plan V S) (limit : Option UInt64) (event : SourceEvent)
    (reaction : Reaction V S) (machine : MachineInstance V S) :
    Except Error Unit × MachineInstance V S :=
  guardedTurn plan "turn" limit (eventTurn plan event reaction) machine

section Tokens

variable {plan : Plan V S} {machine other : MachineInstance V S} {route : SourceRouteToken}
  {target : Option RowId} {source : SourceId}

theorem SourceRouteToken.bindingEpoch_of_new {programRevision bindingEpoch : UInt64}
    {owner : OwnerInstance}
    (made : SourceRouteToken.new programRevision owner source bindingEpoch = .ok route) :
    route.bindingEpoch = bindingEpoch := by
  obtain ⟨_, _, made⟩ := bind_eq_ok_iff.mp made
  cases pure_eq_ok_iff.mp made
  rfl

theorem MachineInstance.epochAt_of_sourceRouteToken {ancestors : List RowId}
    (made : machine.sourceRouteToken plan source ancestors = .ok route) :
    machine.epochAt ancestors.getLast? source = some route.bindingEpoch := by
  obtain ⟨_, isBound, made⟩ := bind_eq_ok_iff.mp made
  cases okOr_eq_ok_iff.mp made
  obtain ⟨_, _, isBound⟩ := bind_eq_ok_iff.mp isBound
  obtain ⟨_, _, isBound⟩ := bind_eq_ok_iff.mp isBound
  obtain ⟨_, _, isBound⟩ := bind_eq_ok_iff.mp isBound
  cases epoch : machine.epochAt ancestors.getLast? source with
  | none =>
    rw [epoch] at isBound
    cases isBound
  | some =>
    rw [epoch] at isBound
    obtain ⟨_, isToken, same⟩ := map_eq_ok_iff.mp isBound
    cases same
    obtain ⟨_, _, isToken⟩ := bind_eq_ok_iff.mp isToken
    rw [SourceRouteToken.bindingEpoch_of_new (mapError_eq_ok_iff.mp isToken)]

theorem MachineInstance.epochAt_of_validate
    (current : machine.validateCurrentSourceRoute plan route = .ok target) :
    target = route.owner.ancestry.getLast? ∧
      machine.epochAt target route.source = some route.bindingEpoch := by
  obtain ⟨_, _, current⟩ := bind_eq_ok_iff.mp current
  obtain ⟨_, _, current⟩ := bind_eq_ok_iff.mp current
  obtain ⟨_, made, current⟩ := bind_eq_ok_iff.mp current
  obtain ⟨_, same, current⟩ := bind_eq_ok_iff.mp current
  cases pure_eq_ok_iff.mp current
  rw [reject_eq_ok_iff, not_not] at same
  subst same
  exact ⟨rfl, epochAt_of_sourceRouteToken made⟩

/-- A token depends on the rows that exist and on the epoch of its own binding. -/
theorem MachineInstance.validateCurrentSourceRoute_congr
    (rows : ∀ row, (other.row? row).isSome = (machine.row? row).isSome)
    (epoch : other.epochAt route.owner.ancestry.getLast? route.source =
      machine.epochAt route.owner.ancestry.getLast? route.source) :
    other.validateCurrentSourceRoute plan route =
      machine.validateCurrentSourceRoute plan route := by
  unfold validateCurrentSourceRoute sourceRouteToken sourceRouteTokenIfBound checkOwnerRows
  simp only [rows, epoch]

end Tokens

/-- Every current token carries the place of its binding. -/
def MachineInstance.Enumerated (plan : Plan V S) (machine : MachineInstance V S) : Prop :=
  ∀ route target, machine.validateCurrentSourceRoute plan route = .ok target →
    (target, route.source) ∈ machine.bindingPlaces plan ∧
      route.bindingEpoch = epochOfPlace ((machine.bindingPlaces plan).idxOf (target, route.source))

section Rejection

variable {plan : Plan V S} {machine after : MachineInstance V S} {session : Session V S}
  {event : SourceEvent} {reaction : Reaction V S} {limit : Option UInt64} {error : Error}

theorem InTurn.count {initial : MachineInstance V S} (inTurn : InTurn initial session)
    (lastSequence : Option UInt64) (turnSequence : UInt64) :
    InTurn initial { session with machine := { session.machine with
      lastSequence := lastSequence
      turnSequence := turnSequence } } where
  undoable := {
    rewinds := inTurn.undoable.rewinds_beside rfl
    listIds := inTurn.undoable.listIds
    revised := inTurn.undoable.revised
    revisions := inTurn.undoable.revisions
    activations := inTurn.undoable.activations
    results := inTurn.undoable.results
    pending := inTurn.undoable.pending
    numbered := inTurn.undoable.numbered.of_same rfl rfl rfl rfl
    attached := fun old found => ⟨(inTurn.undoable.attached old found).known,
      (inTurn.undoable.attached old found).rows⟩ }
  wellFormed := ⟨inTurn.wellFormed.lists, inTurn.wellFormed.touched⟩

/-- The event is valid and the reaction to it writes to a missing row. -/
structure SourceEvent.Strays (plan : Plan V S) (limit : Option UInt64) (event : SourceEvent)
    (reaction : Reaction V S) (machine : MachineInstance V S) : Prop where
  valid : machine.validateEvent plan event = .ok ()
  strays : Mutation.Strays plan reaction.mutations (machine.beginTurn limit)

theorem wp_eventTurn (settled : machine.Settled)
    (placed : ¬event.Strays plan limit reaction machine) :
    wp (eventTurn plan event reaction) (Fallen machine) (fun _ _ => True)
      (machine.beginTurn limit) := by
  have begun : InTurn machine (machine.beginTurn limit) := settled.inTurn
  unfold eventTurn modifyMachine
  rw [wp_bind, wp_get, wp_bind, wp_attempt]
  refine ⟨fun _ valid => ?_, fun _ _ => begun.fallen⟩
  obtain ⟨fallen, ends⟩ := fallen_runTurn begun fun strays => placed ⟨valid, strays⟩
  rw [wp_bind]
  have reacts : wp (reaction.mutations.forM (apply plan)) (Fallen machine)
      (fun _ after => InTurn machine after) (machine.beginTurn limit) := by
    unfold wp
    rw [exec_forM_apply]
    rcases ran : runTurn plan reaction.mutations (machine.beginTurn limit) with
      ⟨_ | _, last⟩
    · rw [ran] at fallen
      exact fallen
    · rw [ran] at ends
      exact ends rfl
  apply reacts.weaken
  intro _ session inTurn
  simp only [wp_bind, wp_get, wp_attempt, wp_modify]
  refine ⟨fun _ _ => ⟨fun sequence _ => ?_, fun _ _ => ?_⟩, fun _ _ => inTurn.fallen⟩
  · apply wp.mono (wp_commitTransientEffects (inTurn.count _ _)) fun _ failed => failed.1
    intro _ last committed
    rw [wp_attempt]
    exact ⟨fun _ _ => trivial, fun _ _ => committed.1.1.fallen⟩
  · exact (inTurn.count _ _).fallen

theorem eventTurn_stranded (strays : event.Strays plan limit reaction machine) :
    ∃ error row, exec (eventTurn plan event reaction) (machine.beginTurn limit) =
        (.error error, (runTurn plan reaction.mutations (machine.beginTurn limit)).2) ∧
      Stranded row (runTurn plan reaction.mutations (machine.beginTurn limit)).2 := by
  obtain ⟨error, row, _, ran, stranded⟩ := stranded_runTurn strays.strays
  have valid : (machine.beginTurn limit).machine.validateEvent plan event = .ok () := strays.valid
  refine ⟨error, row, ?_, ran ▸ stranded⟩
  unfold eventTurn
  rw [exec_get_bind, valid, exec_attempt_bind]
  rw [exec_bind, exec_forM_apply, ran]

/-- The condition under which a rejected event leaves every route as it was. -/
structure RoutesKept (plan : Plan V S) (limit : Option UInt64) (event : SourceEvent)
    (reaction : Reaction V S) (machine : MachineInstance V S) : Prop where
  /-- A rollback that succeeds finds every epoch at its place. -/
  enumerated : ¬event.Strays plan limit reaction machine → machine.Enumerated plan
  /-- A rollback that fails leaves the rows and bindings that the reaction reached. -/
  reached : event.Strays plan limit reaction machine → ∀ route target,
    machine.validateCurrentSourceRoute plan route = .ok target →
    (runTurn plan reaction.mutations
      (machine.beginTurn limit)).2.machine.validateCurrentSourceRoute plan route = .ok target

/-- A rolled back turn leaves the rows as they were and binds all sources anew. -/
theorem guardedTurn_rebinds {doing : String} {body : Step V S Unit} (settled : machine.Settled)
    (holds : wp body (Fallen machine) (fun _ _ => True) (machine.beginTurn limit))
    (rejected : guardedTurn plan doing limit body machine = (.error error, after)) :
    (∀ row, (after.row? row).isSome = (machine.row? row).isSome) ∧
      ∀ owner source, after.epochAt owner source =
        if (owner, source) ∈ machine.bindingPlaces plan then
          some (epochOfPlace ((machine.bindingPlaces plan).idxOf (owner, source)))
        else none := by
  unfold guardedTurn at rejected
  unfold wp at holds
  rcases ran : exec body (machine.beginTurn limit) with ⟨_ | _, _⟩
  · rw [ran] at holds rejected
    obtain ⟨_, _, rolledBack, restored, state, rebound⟩ :=
      (wp_rollbackTurn plan holds settled.wellFormed).eq_ok
    dsimp only at rejected
    rw [rolledBack] at rejected
    cases rejected
    have lists : restored.turnState.lists = machine.turnState.lists := by
      rw [state]
      rfl
    have listed := settled.wellFormed.listed.of_turnState lists
    have places : restored.bindingPlaces plan = machine.bindingPlaces plan := by
      unfold bindingPlaces rowPlaces
      rw [orderedRows_of_turnState lists]
    rw [rebound]
    constructor
    · intro row
      change ((restored.rebound plan).row? row).isSome = _
      apply isSome_row?_of_turnState
      rw [turnState_rebound, lists]
    · intro owner source
      rw [← places, ← listed.epochAt_rebound]
      exact epochAt_congr rfl rfl
  · rw [ran] at rejected
    cases rejected

/-- A rejected event leaves every current token current exactly when it carried its place. -/
theorem applyEvent_keeps_routes_iff (settled : machine.Settled)
    (rejected : applyEvent plan limit event reaction machine = (.error error, after)) :
    (∀ route target, machine.validateCurrentSourceRoute plan route = .ok target →
      after.validateCurrentSourceRoute plan route = .ok target) ↔
        RoutesKept plan limit event reaction machine := by
  by_cases strays : event.Strays plan limit reaction machine
  · obtain ⟨_, row, ran, stranded⟩ := eventTurn_stranded strays
    obtain ⟨_, _, failed, same⟩ := (stranded.rollbackTurn_fails plan).eq_error
    unfold applyEvent guardedTurn at rejected
    rw [ran] at rejected
    dsimp only at rejected
    rw [failed] at rejected
    cases rejected
    rw [same]
    constructor
    · exact fun kept => ⟨fun placed => absurd strays placed, fun _ => kept⟩
    · exact fun kept => kept.reached strays
  · obtain ⟨rows, epochs⟩ := guardedTurn_rebinds settled (wp_eventTurn settled strays) rejected
    constructor
    · refine fun kept => ⟨fun _ route target current => ?_, fun stray => absurd stray strays⟩
      obtain ⟨_, epoch⟩ := epochAt_of_validate (kept route target current)
      rw [epochs] at epoch
      split at epoch
      · next member => exact ⟨member, (Option.some.inj epoch).symm⟩
      · cases epoch
    · intro kept route target current
      obtain ⟨member, place⟩ := kept.enumerated strays route target current
      obtain ⟨rfl, epoch⟩ := epochAt_of_validate current
      rw [validateCurrentSourceRoute_congr rows _, current]
      rw [epochs, if_pos member, epoch, place]

end Rejection

section Revocation

/-- A plan with a source at the root and a source in every row of two lists. -/
def routedPlan : Plan Nat Unit :=
  { rowPlan.toPlan with
    listSlots := [⟨1, some 7, none⟩, ⟨2, some 7, none⟩]
    routes := ((∅ : BTreeMap SourceId SourceRoute).insert 1
      ⟨PlanStaticOwnerId.root, [], false, none⟩).insert 2 ⟨5, [1], true, some 7⟩
    size_routes_lt := by decide }

/-- A machine whose root source is bound. -/
def routedMachine (machine : MachineInstance Nat Unit) : MachineInstance Nat Unit :=
  { machine with
    rootSourceBindings := (∅ : BTreeMap SourceId UInt64).insert 1 1
    nextBindingId := 2 }

/-- An event of the root source. -/
def rootEvent (sequence : UInt64) : SourceEvent :=
  ⟨sequence, ⟨1, ⟨PlanStaticOwnerId.root, []⟩, 1, 0, 1⟩, 1, none⟩

/-- The program reacts with mutations that can be stored and reported. -/
def reactWith (mutations : List (Mutation Nat Unit)) : Reaction Nat Unit :=
  ⟨mutations, .ok (), .ok ()⟩

/-- A machine with two empty lists. -/
def twoLists : MachineInstance Nat Unit :=
  { emptyList with lists := emptyList.lists.insert 2 .empty }

theorem settled_twoLists : (routedMachine twoLists).Settled := by
  apply Settled.of_empty_lists _ rfl fun member => absurd member Std.ExtTreeMap.not_mem_empty
  intro id list found
  rcases BTreeMap.getElem?_insert_eq_some_iff.mp found with ⟨_, rfl⟩ | ⟨_, found⟩
  · rfl
  rcases BTreeMap.getElem?_insert_eq_some_iff.mp found with ⟨_, rfl⟩ | ⟨_, found⟩
  · rfl
  · cases found

/-- An accepted event appends a row to the second list and then one to the first. -/
def laterRow : MachineInstance Nat Unit :=
  (applyEvent routedPlan none (rootEvent 1)
    (reactWith [.appendRow 2 ∅ [] none [] 0, .appendRow 1 ∅ [] none [] 0])
    (routedMachine twoLists)).2

/-- An event with an old sequence number revokes the route of the row in the first list. -/
theorem applyEvent_revokes_route :
    laterRow.validateCurrentSourceRoute routedPlan ⟨1, ⟨5, [⟨1, 1, 1⟩]⟩, 2, 1, 3⟩ =
      .ok (some ⟨1, 1, 1⟩) ∧
    (applyEvent routedPlan none (rootEvent 1) (reactWith []) laterRow).1 =
      .error (.invalidEvent "sequence 1 must be greater than 1") ∧
    (applyEvent routedPlan none (rootEvent 1) (reactWith []) laterRow
        ).2.validateCurrentSourceRoute routedPlan ⟨1, ⟨5, [⟨1, 1, 1⟩]⟩, 2, 1, 3⟩ =
      .error (.invalidEvent "source route owner, generation, or binding epoch is stale") :=
  ⟨rfl, rfl, rfl⟩

/-- A turn appends a row to the first list and then one to the second. -/
def rowsInOrder : MachineInstance Nat Unit :=
  (runTurn routedPlan [.appendRow 1 ∅ [] none [] 0, .appendRow 2 ∅ [] none [] 0]
    ((routedMachine twoLists).beginTurn none)).2.machine

theorem enumerated_rowsInOrder (settled : rowsInOrder.Settled) :
    rowsInOrder.Enumerated routedPlan := by
  intro route target current
  obtain ⟨_, epoch⟩ := epochAt_of_validate current
  have places : rowsInOrder.bindingPlaces routedPlan =
      [(none, 1), (some ⟨1, 1, 1⟩, 2), (some ⟨2, 1, 1⟩, 2)] := rfl
  rw [places]
  -- the root and each row bind one source
  have single : ∀ bound number, rowsInOrder.epochAt target route.source =
      ((∅ : BTreeMap SourceId UInt64).insert bound number)[route.source]? →
        bound = route.source ∧ number = route.bindingEpoch := by
    intro bound number same
    rw [same] at epoch
    rcases BTreeMap.getElem?_insert_eq_some_iff.mp epoch with ⟨bound, rfl⟩ | ⟨_, found⟩
    · exact ⟨bound, rfl⟩
    · cases found
  cases target with
  | none =>
    obtain ⟨source, number⟩ := single 1 1 rfl
    rw [← source, ← number]
    decide
  | some row =>
    obtain ⟨_, found, _⟩ := Option.bind_eq_some_iff.mp epoch
    have member : row ∈ [⟨1, 1, 1⟩, ⟨2, 1, 1⟩] :=
      settled.wellFormed.listed.mem_iff.mpr (Option.isSome_of_eq_some found)
    simp only [List.mem_cons, List.not_mem_nil, or_false] at member
    rcases member with rfl | rfl
    · obtain ⟨source, number⟩ := single 2 2 rfl
      rw [← source, ← number]
      decide
    · obtain ⟨source, number⟩ := single 2 3 rfl
      rw [← source, ← number]
      decide

/-- Rows that were bound in their order keep their routes. -/
theorem applyEvent_keeps_row_route :
    rowsInOrder.validateCurrentSourceRoute routedPlan ⟨1, ⟨5, [⟨1, 1, 1⟩]⟩, 2, 1, 2⟩ =
        .ok (some ⟨1, 1, 1⟩) ∧
      (applyEvent routedPlan none (rootEvent 1)
          (reactWith [.writeRootState 3 5, .fail (.evaluation "stop")])
          rowsInOrder).2.validateCurrentSourceRoute routedPlan ⟨1, ⟨5, [⟨1, 1, 1⟩]⟩, 2, 1, 2⟩ =
        .ok (some ⟨1, 1, 1⟩) := by
  have settled : rowsInOrder.Settled := settled_twoLists.runTurn rfl
  have rejected : (applyEvent routedPlan none (rootEvent 1)
      (reactWith [.writeRootState 3 5, .fail (.evaluation "stop")])
      rowsInOrder).1 = .error (.evaluation "stop") :=
    rfl
  refine ⟨rfl, (applyEvent_keeps_routes_iff settled (Prod.ext rejected rfl)).mpr
    ⟨fun _ => enumerated_rowsInOrder settled, fun strays => ?_⟩ _ _ rfl⟩
  exact absurd strays.strays (not_strays (by simp [Stray, reactWith]))

end Revocation

end BoonCircuit.Executor
