import BoonCircuit.Lib.Actions
import BoonCircuit.Lib.BTree
import BoonCircuit.Lib.Order

/-!
# State of a machine instance

Roots, lists of rows, maps and sets, effect activations and pending effect calls of
one running program, the parts of the plan that its mutations read, and the undo
logs of the turn in progress.  Interned owner identifiers of the source are the
routes they stand for: an ancestry is the list of the rows that contain a place,
outermost first.
-/

namespace BoonCircuit.Executor

open Lib Std Order

/-- What the machine asks of the values of a program. -/
class RuntimeValue (V : Type) extends Ord V, TransOrd V, LawfulEqOrd V where
  decEq : DecidableEq V

instance {V : Type} [RuntimeValue V] : DecidableEq V :=
  RuntimeValue.decEq

instance : RuntimeValue Nat where
  decEq := inferInstance

abbrev ListId : Type := Nat

abbrev StateId : Type := Nat

abbrev FieldId : Type := Nat

abbrev SourceId : Type := Nat

abbrev ScopeId : Type := Nat

abbrev PlanOpId : Type := Nat

abbrev PlanStaticOwnerId : Type := Nat

abbrev PlanCollectionAuthorityId : Type := Nat

abbrev EffectId : Type := Nat

abbrev EffectInvocationId : Type := Nat

/-- Identity of the producer call that a collection belongs to. -/
abbrev ProducerScope : Type := Nat

/-- One row of one list. -/
@[ext]
structure RowId where
  list : ListId
  key : UInt64
  generation : UInt64
  deriving DecidableEq

namespace RowId

protected def cmp : RowId → RowId → Ordering :=
  compareLex (compareOn list) (compareLex (compareOn key) (compareOn generation))

instance : Ord RowId :=
  ⟨RowId.cmp⟩

instance : TransOrd RowId :=
  inferInstanceAs (TransCmp (compareLex _ (compareLex _ _)))

instance : LawfulEqOrd RowId where
  eq_of_compare same := RowId.ext_iff.mpr (eq_of_compareLex_eq same)

/-- The row as error messages show it. -/
protected def text (row : RowId) : String :=
  toString row.list ++ ":" ++ toString row.key ++ ":" ++ toString row.generation

/-- The row as debug output shows it. -/
protected def debug (row : RowId) : String :=
  "RowId \x7b list: ListId(" ++ toString row.list ++ "), key: " ++ toString row.key ++
    ", generation: " ++ toString row.generation ++ " \x7d"

end RowId

/-- The rows that contain a place, outermost first. -/
abbrev Ancestry : Type := List RowId

/-- One dynamic instance of a static owner. -/
structure OwnerInstance where
  staticOwner : PlanStaticOwnerId
  ancestry : Ancestry
  deriving DecidableEq

/-- One field of one row. -/
@[ext]
structure RowField where
  row : RowId
  field : FieldId
  deriving DecidableEq

namespace RowField

protected def cmp : RowField → RowField → Ordering :=
  compareLex (compareOn row) (compareOn field)

instance : Ord RowField :=
  ⟨RowField.cmp⟩

instance : TransOrd RowField :=
  inferInstanceAs (TransCmp (compareLex _ _))

instance : LawfulEqOrd RowField where
  eq_of_compare same := RowField.ext_iff.mpr (eq_of_compareLex_eq₂ same)

end RowField

/-- One update operation, for one row or for the root. -/
@[ext]
structure EffectConsumer where
  op : PlanOpId
  row : Option RowId
  deriving DecidableEq

namespace EffectConsumer

protected def cmp : EffectConsumer → EffectConsumer → Ordering :=
  compareLex (compareOn op) (compareOn row)

instance : Ord EffectConsumer :=
  ⟨EffectConsumer.cmp⟩

instance : TransOrd EffectConsumer :=
  inferInstanceAs (TransCmp (compareLex _ _))

instance : LawfulEqOrd EffectConsumer where
  eq_of_compare same := EffectConsumer.ext_iff.mpr (eq_of_compareLex_eq₂ same)

end EffectConsumer

@[ext]
structure TransientEffectResultKey where
  invocationId : EffectInvocationId
  row : Option RowId
  deriving DecidableEq

namespace TransientEffectResultKey

protected def cmp : TransientEffectResultKey → TransientEffectResultKey → Ordering :=
  compareLex (compareOn invocationId) (compareOn row)

instance : Ord TransientEffectResultKey :=
  ⟨TransientEffectResultKey.cmp⟩

instance : TransOrd TransientEffectResultKey :=
  inferInstanceAs (TransCmp (compareLex _ _))

instance : LawfulEqOrd TransientEffectResultKey where
  eq_of_compare same := TransientEffectResultKey.ext_iff.mpr (eq_of_compareLex_eq₂ same)

end TransientEffectResultKey

@[ext]
structure TransientEffectCallId where
  launchEpoch : UInt64
  sequence : UInt64
  deriving DecidableEq

namespace TransientEffectCallId

protected def cmp : TransientEffectCallId → TransientEffectCallId → Ordering :=
  compareLex (compareOn launchEpoch) (compareOn sequence)

instance : Ord TransientEffectCallId :=
  ⟨TransientEffectCallId.cmp⟩

/-- Error messages hide the number of a call. -/
def report (detail : String) : String :=
  "transient effect call TransientEffectCallId(..) " ++ detail

instance : TransOrd TransientEffectCallId :=
  inferInstanceAs (TransCmp (compareLex _ _))

instance : LawfulEqOrd TransientEffectCallId where
  eq_of_compare same := TransientEffectCallId.ext_iff.mpr (eq_of_compareLex_eq₂ same)

end TransientEffectCallId

/-- One step of a collection route: the map entry that holds the collection. -/
@[ext]
structure CollectionOwnerInstance (V : Type) where
  parentAuthority : PlanCollectionAuthorityId
  key : V
  generation : UInt64
  deriving DecidableEq

namespace CollectionOwnerInstance

variable {V : Type} [RuntimeValue V]

protected def cmp : CollectionOwnerInstance V → CollectionOwnerInstance V → Ordering :=
  compareLex (compareOn parentAuthority) (compareLex (compareOn key) (compareOn generation))

instance : Ord (CollectionOwnerInstance V) :=
  ⟨CollectionOwnerInstance.cmp⟩

instance : Std.TransOrd (CollectionOwnerInstance V) :=
  inferInstanceAs (TransCmp (compareLex _ (compareLex _ _)))

instance : LawfulEqOrd (CollectionOwnerInstance V) where
  eq_of_compare same := CollectionOwnerInstance.ext_iff.mpr (eq_of_compareLex_eq same)

end CollectionOwnerInstance

/-- The dynamic scope of one map or set of the program. -/
structure CollectionAuthorityAddress (V : Type) where
  authority : PlanCollectionAuthorityId
  ownerAncestors : Ancestry
  collectionAncestors : List (CollectionOwnerInstance V)
  producer : Option ProducerScope
  deriving DecidableEq

namespace CollectionAuthorityAddress

variable {V : Type} [RuntimeValue V]

protected def cmp : CollectionAuthorityAddress V → CollectionAuthorityAddress V → Ordering :=
  compareLex (compareOn authority) (compareLex (compareOn ownerAncestors)
    (compareLex (compareOn collectionAncestors) (compareOn producer)))

instance : Ord (CollectionAuthorityAddress V) :=
  ⟨CollectionAuthorityAddress.cmp⟩

instance : Std.TransOrd (CollectionAuthorityAddress V) :=
  inferInstanceAs (TransCmp (compareLex _ (compareLex _ (compareLex _ _))))

instance : LawfulEqOrd (CollectionAuthorityAddress V) where
  eq_of_compare {left right} same := by
    rcases left with ⟨_, _, _, _⟩
    rcases right with ⟨_, _, _, _⟩
    change compareLex (compareOn authority) (compareLex (compareOn ownerAncestors)
      (compareLex (compareOn collectionAncestors) (compareOn producer))) _ _ = .eq at same
    simpa only [compareLex, compareOn, Ordering.then_eq_eq, Std.compare_eq_iff_eq,
      mk.injEq] using same

end CollectionAuthorityAddress

/-- The program place that feeds one entry or item of a collection. -/
inductive CollectionProducerSite (V : Type) where
  | mapLiteral (address : CollectionAuthorityAddress V) (entry : Nat)
  | setLiteral (address : CollectionAuthorityAddress V) (item : Nat)
  | builtin (address : CollectionAuthorityAddress V) (expression : Nat)
  deriving DecidableEq

namespace CollectionProducerSite

variable {V : Type}

/-- Position of the variant in its declaration. -/
def variant : CollectionProducerSite V → Nat
  | .mapLiteral .. => 0
  | .setLiteral .. => 1
  | .builtin .. => 2

def address : CollectionProducerSite V → CollectionAuthorityAddress V
  | .mapLiteral address _ | .setLiteral address _ | .builtin address _ => address

def position : CollectionProducerSite V → Nat
  | .mapLiteral _ position | .setLiteral _ position | .builtin _ position => position

/-- The number that error messages give for the place. -/
def reportedNumber : CollectionProducerSite V → Nat
  | .builtin _ expression => expression
  | .mapLiteral address _ | .setLiteral address _ => address.authority

variable [RuntimeValue V]

protected def cmp : CollectionProducerSite V → CollectionProducerSite V → Ordering :=
  compareLex (compareOn variant) (compareLex (compareOn address) (compareOn position))

instance : Ord (CollectionProducerSite V) :=
  ⟨CollectionProducerSite.cmp⟩

instance : Std.TransOrd (CollectionProducerSite V) :=
  inferInstanceAs (TransCmp (compareLex _ (compareLex _ _)))

instance : LawfulEqOrd (CollectionProducerSite V) where
  eq_of_compare {left right} same := by
    have tie := eq_of_compareLex_eq same
    cases left <;> cases right <;> simp_all [variant, address, position]

end CollectionProducerSite

/-- What a producer place last asked for. -/
inductive CollectionProducerCandidate (V : Type) where
  | mapUpsert (key value : V)
  | mapRemove (key : V)
  | setAdd (item : V)
  | setRemove (item : V)
  deriving DecidableEq

open Lib Checks

/-- Failures of a machine. -/
inductive Error where
  | invalidPlan (detail : String)
  | invalidEvent (detail : String)
  | evaluation (detail : String)
  | workBudgetExceeded (limit attempted : UInt64)
  deriving DecidableEq

/-- The next number, unless the counter is exhausted. -/
def checkedSucc (number : UInt64) (exhausted : Error) : Except Error UInt64 :=
  okOr (if number = 0xFFFFFFFFFFFFFFFF then none else some (number + 1)) exhausted

/-- Addition that stops at the largest number. -/
def saturatingAdd (left right : UInt64) : UInt64 :=
  if left.toNat + right.toNat < 2 ^ 64 then left + right else 0xFFFFFFFFFFFFFFFF

section State

variable (V S : Type) [RuntimeValue V]

structure Row where
  ownerAncestry : Ancestry
  materializationOrigin : Option Ancestry
  fields : BTreeMap FieldId V
  bindings : BTreeMap SourceId UInt64

/-- A block of rows that stand together, linked to its neighbours. -/
structure ListOrderBlock where
  previous : Option UInt64
  next : Option UInt64
  rows : List RowId
  deriving DecidableEq

structure ListOrderLocation where
  block : UInt64
  offset : Nat
  deriving DecidableEq

structure ListOrderMetadata where
  firstBlock : Option UInt64
  lastBlock : Option UInt64
  nextBlock : UInt64
  len : Nat
  /-- The number of mutations. -/
  version : UInt64
  deriving DecidableEq

/-- The order of a list's rows: a chain of bounded blocks and the place of every row in it.
The balanced tree over the chain, which finds a block by its position, is left out. -/
structure ListOrder extends ListOrderMetadata where
  blocks : BTreeMap UInt64 ListOrderBlock
  locations : BTreeMap RowId ListOrderLocation

/-- One change of an order, with the blocks and places it changes on both sides. -/
structure ListOrderPatch where
  before : ListOrderMetadata
  after : ListOrderMetadata
  blocks : BTreeMap UInt64 (Option ListOrderBlock × Option ListOrderBlock)
  locations : BTreeMap RowId (Option ListOrderLocation × Option ListOrderLocation)

/-- The rows of a list under one owner. -/
structure OwnerPartition where
  order : List RowId
  byMaterializationOrigin : BTreeMap Ancestry RowId

structure ListState where
  rows : BTreeMap RowId (Row V)
  order : ListOrder
  orderTokens : BTreeMap RowId Nat
  nextOrderToken : Nat
  revision : UInt64
  ownerPartitions : BTreeMap Ancestry OwnerPartition
  nextKey : UInt64

/-- One change of a list's order and tokens, with the values on both sides. -/
structure SourceOrderPatch where
  order : ListOrderPatch
  tokens : BTreeMap RowId (Option Nat × Option Nat)
  beforeNextOrderToken : Nat
  afterNextOrderToken : Nat

structure MapAuthority where
  touched : Bool
  revision : UInt64
  nextKeyGeneration : UInt64
  keyGenerations : BTreeMap V UInt64
  entries : BTreeMap V V

structure SetAuthority where
  touched : Bool
  revision : UInt64
  items : BTreeSet V

inductive CollectionAuthorityState where
  | map (authority : MapAuthority V)
  | set (authority : SetAuthority V)

/-- A root value that may be absent for the program itself. -/
inductive PrivatePresence where
  | absent
  | present (value : V)
  deriving DecidableEq

structure EffectActivation where
  invocationId : EffectInvocationId
  owner : OwnerInstance
  deriving DecidableEq

/-- How many results an effect call delivers. -/
inductive EffectDeliveryCardinality where
  | single
  | stream (initialCredits maxInFlight : UInt32) (creditResultTags terminalResultTags : List String)
  deriving DecidableEq

structure PendingTransientEffect where
  invocationId : EffectInvocationId
  effectId : EffectId
  owner : OwnerInstance
  target : Option RowId
  executionScope : UInt64
  delivery : EffectDeliveryCardinality
  semantic : S
  nextResultSequence : UInt64
  availableCredits : UInt32

structure TransientEffectInvocation where
  callId : TransientEffectCallId
  invocationId : EffectInvocationId
  effectId : EffectId
  owner : OwnerInstance
  target : Option RowId
  intent : V

structure MachineInstance where
  rootStates : BTreeMap StateId (PrivatePresence V)
  touchedRootStates : BTreeSet StateId
  lists : BTreeMap ListId (ListState V)
  touchedLists : BTreeSet ListId
  touchedRowFields : BTreeSet RowField
  collectionAuthorities : BTreeMap (CollectionAuthorityAddress V) (CollectionAuthorityState V)
  collectionProducers : BTreeMap (CollectionProducerSite V) (CollectionProducerCandidate V)
  effectActivations : BTreeMap EffectConsumer EffectActivation
  transientEffectResults : BTreeMap TransientEffectResultKey V
  pendingTransientEffects : BTreeMap TransientEffectCallId (PendingTransientEffect S)
  rootSourceBindings : BTreeMap SourceId UInt64
  nextBindingId : UInt64
  lastSequence : Option UInt64
  turnSequence : UInt64
  launchEpoch : UInt64
  transientEffectScope : UInt64
  nextTransientEffectSequence : UInt64

structure SourceRoute where
  staticOwner : PlanStaticOwnerId
  /-- The lists of the owner's rows, outermost first. -/
  ancestors : List ListId
  isScoped : Bool
  scopeId : Option ScopeId
  deriving DecidableEq

structure ListStorageSlot where
  listId : ListId
  scopeId : Option ScopeId
  capacity : Option Nat
  deriving DecidableEq

structure EffectContract where
  effectId : EffectId
  delivery : EffectDeliveryCardinality
  deriving DecidableEq

/-- What the modelled mutations read from a plan, its metadata and the session options. -/
structure Plan where
  programRevision : UInt64
  requireMonotonicSequences : Bool
  routes : BTreeMap SourceId SourceRoute
  /-- A map in memory has fewer than `2 ^ 63` entries. -/
  size_routes_lt : routes.size < 2 ^ 63
  listSlots : List ListStorageSlot
  durableLists : BTreeSet ListId
  durableRowFields : ListId → FieldId → Bool
  /-- The fields of a list that are authority, in order. -/
  authorityFields : ListId → List FieldId
  effects : List EffectContract
  /-- The live collections that a value mentions. -/
  valueCollectionAuthorities : V → List (CollectionAuthorityAddress V)
  /-- The stream check of a new call, from its effect and intent. -/
  semanticForInvocation : EffectId → V → Except String S
  /-- One accepted result of a stream, by sequence, value and whether it ends the stream. -/
  semanticAccept : S → UInt64 → V → Bool → Except String S
  /-- The stored form of an outcome that fits the effect's result type. -/
  storedOutcome : EffectId → V → Except Error V
  outcomeTag : V → Option String

end State

section Work

variable (V S : Type) [RuntimeValue V]

structure RowAuthority where
  id : RowId
  sourceOrderToken : Nat
  ownerAncestors : Ancestry
  materializationOrigin : Option Ancestry
  fields : BTreeMap FieldId V
  touchedFields : BTreeSet FieldId

structure ListAuthority where
  touched : Bool
  revision : UInt64
  nextKey : UInt64
  nextOrderToken : Nat
  rows : List (RowAuthority V)

/-- What a turn reports about authority, in the order it happened. -/
inductive AuthorityDelta where
  | setRoot (state : StateId) (value : V)
  | setRowField (row : RowId) (ownerAncestors : Ancestry)
      (materializationOrigin : Option Ancestry) (field : FieldId) (value : V)
  | replaceList (listId : ListId) (authority : ListAuthority V)
  | insertRow (row : RowAuthority V) (index : Nat) (nextKey : UInt64)
  | removeRow (row : RowId) (nextKey : UInt64)
  | retireRowOverlay (row : RowId)
  | createMap (address : CollectionAuthorityAddress V)
  | mapUpsert (address : CollectionAuthorityAddress V) (revision : UInt64) (key value : V)
  | mapRemove (address : CollectionAuthorityAddress V) (revision : UInt64) (key : V)
  | deleteMap (address : CollectionAuthorityAddress V)
  | createSet (address : CollectionAuthorityAddress V)
  | setAdd (address : CollectionAuthorityAddress V) (revision : UInt64) (item : V)
  | setRemove (address : CollectionAuthorityAddress V) (revision : UInt64) (item : V)
  | deleteSet (address : CollectionAuthorityAddress V)

/-- The collection a delta is about. -/
def AuthorityDelta.collectionAddress {V : Type} [RuntimeValue V] :
    AuthorityDelta V → Option (CollectionAuthorityAddress V)
  | .createMap address | .mapUpsert address .. | .mapRemove address .. | .deleteMap address
  | .createSet address | .setAdd address .. | .setRemove address .. | .deleteSet address =>
    some address
  | .setRoot .. | .setRowField .. | .replaceList .. | .insertRow .. | .removeRow ..
  | .retireRowOverlay .. => none

inductive AuthorityUndo where
  | rootState (state : StateId) (value : Option (PrivatePresence V)) (touched : Bool)
  | rowField (row : RowId) (field : FieldId) (value : Option V) (touchedField touchedList : Bool)
  | appendRow (row : RowId) (previousNextKey : UInt64) (sourceOrder : SourceOrderPatch)
      (touchedList : Bool)
  | removeRow (row : RowId) (value : Row V) (sourceOrder : SourceOrderPatch)
      (previousNextKey : UInt64) (touchedList : Bool) (touchedFields : List FieldId)
  | reorderRows (list : ListId) (undo : SourceOrderPatch)
      (ownerPartition : Option (Ancestry × List RowId))
  | collection (address : CollectionAuthorityAddress V)
      (previous : Option (CollectionAuthorityState V))
  | collectionProducer (site : CollectionProducerSite V)
      (previous : Option (CollectionProducerCandidate V))

/-- The key or item that an operation of the turn addresses. -/
structure PendingCollectionOperationKey where
  isSet : Bool
  address : CollectionAuthorityAddress V
  member : V
  deriving DecidableEq

inductive PendingCollectionOperation where
  | mapUpsert (value : V)
  | mapRemove
  | setAdd
  | setRemove
  deriving DecidableEq

structure Work where
  emit : Bool
  authorityDeltas : List (AuthorityDelta V)
  transientEffects : List (TransientEffectInvocation V)
  cancelledTransientEffects : List TransientEffectCallId
  committedTransientEffects : List TransientEffectCallId
  completedTransientEffects : List (TransientEffectCallId × PendingTransientEffect S)
  updatedTransientEffects : List (TransientEffectCallId × PendingTransientEffect S)
  authorityUndo : List (AuthorityUndo V)
  undoRootStates : BTreeSet StateId
  undoRowFields : BTreeSet RowField
  undoCollectionAuthorities : BTreeSet (CollectionAuthorityAddress V)
  undoCollectionProducers : BTreeSet (CollectionProducerSite V)
  pendingCollectionOperations :
    List (PendingCollectionOperationKey V × PendingCollectionOperation V)
  listRevisionUndo : BTreeMap ListId UInt64
  effectActivationUndo : BTreeMap EffectConsumer (Option EffectActivation)
  transientEffectResultUndo : BTreeMap TransientEffectResultKey (Option V)
  workLimit : Option UInt64
  workUnits : UInt64
  enforceWorkLimit : Bool

/-- A machine with the turn it is in. -/
structure Session where
  machine : MachineInstance V S
  work : Work V S

end Work

/-- A step of a turn.  A failed step keeps what it did before it failed. -/
abbrev Step (V S : Type) [RuntimeValue V] (α : Type) : Type :=
  Action (Session V S) Error α

end BoonCircuit.Executor
