import BoonCircuit.Executor.Mutations
import Mathlib.Data.List.Sort

/-!
# Mutations of a turn: maps and sets

A collection is noted in the undo log at its first change in the turn.  Competing
operations on one key or item within a turn are a conflict.  Removing a map entry
or replacing its value retires the collections that lived in it.
-/

namespace BoonCircuit.Executor

open Lib Checks
open Lib.Action (attempt)

variable {V S : Type} [RuntimeValue V]

variable (address : CollectionAuthorityAddress V)

def recordCollectionAuthorityUndo : Step V S Unit :=
  modify fun session =>
    if address ∈ session.work.undoCollectionAuthorities then session
    else { session with work := { session.work with
      undoCollectionAuthorities := session.work.undoCollectionAuthorities.insert address
      authorityUndo := session.work.authorityUndo ++ [.collection address
        session.machine.collectionAuthorities[address]?] } }

def recordCollectionProducerUndo (site : CollectionProducerSite V) : Step V S Unit :=
  modify fun session =>
    if site ∈ session.work.undoCollectionProducers then session
    else { session with work := { session.work with
      undoCollectionProducers := session.work.undoCollectionProducers.insert site
      authorityUndo := session.work.authorityUndo ++ [.collectionProducer site
        session.machine.collectionProducers[site]?] } }

def putCollection (state : CollectionAuthorityState V) : Step V S Unit :=
  modifyMachine fun machine => { machine with
    collectionAuthorities := machine.collectionAuthorities.insert address state }

def pushEmitted (delta : AuthorityDelta V) : Step V S Unit :=
  modifyWork fun work =>
    if work.emit then { work with authorityDeltas := work.authorityDeltas ++ [delta] } else work

def emptyMap : MapAuthority V :=
  ⟨false, 0, 1, ∅, ∅⟩

def emptySet : SetAuthority V :=
  ⟨false, 0, ∅⟩

def ensureMapAuthority : Step V S Unit := do
  let session ← get
  match session.machine.collectionAuthorities[address]? with
  | some (.map _) => pure ()
  | some (.set _) => attempt (.error (.invalidPlan ("collection authority " ++
      toString address.authority ++ " is used as both MAP and SET")))
  | none =>
    recordCollectionAuthorityUndo address
    putCollection address (.map emptyMap)
    pushEmitted (.createMap address)

def ensureSetAuthority : Step V S Unit := do
  let session ← get
  match session.machine.collectionAuthorities[address]? with
  | some (.set _) => pure ()
  | some (.map _) => attempt (.error (.invalidPlan ("collection authority " ++
      toString address.authority ++ " is used as both SET and MAP")))
  | none =>
    recordCollectionAuthorityUndo address
    putCollection address (.set emptySet)
    pushEmitted (.createSet address)

/-- Deeper collections come first; equal depths keep their order. -/
def deepestFirst (addresses : List (CollectionAuthorityAddress V)) :
    List (CollectionAuthorityAddress V) :=
  addresses.insertionSort fun left right =>
    right.collectionAncestors.length ≤ left.collectionAncestors.length

def retireProducer (site : CollectionProducerSite V) : Step V S Unit := do
  recordCollectionProducerUndo site
  modifyMachine fun machine => { machine with
    collectionProducers := machine.collectionProducers.erase site }

def retireCollection : Step V S Unit := do
  recordCollectionAuthorityUndo address
  let session ← get
  modifyMachine fun machine => { machine with
    collectionAuthorities := machine.collectionAuthorities.erase address }
  match session.machine.collectionAuthorities[address]? with
  | some (.map _) => pushEmitted (.deleteMap address)
  | some (.set _) => pushEmitted (.deleteSet address)
  | none => pure ()

def retireCollectionAuthorities (predicate : CollectionAuthorityAddress V → Bool) :
    Step V S Unit := do
  let session ← get
  let retired := deepestFirst (session.machine.collectionAuthorities.keys.filter predicate)
  let sites := session.machine.collectionProducers.keys.filter fun site =>
    retired.contains site.address
  sites.forM retireProducer
  retired.forM retireCollection

/-- Whether a collection hangs below a route of the address. -/
def CollectionAuthorityAddress.below (root candidate : CollectionAuthorityAddress V) : Bool :=
  candidate.producer == root.producer &&
    root.ownerAncestors.isPrefixOf candidate.ownerAncestors &&
    root.collectionAncestors.isPrefixOf candidate.collectionAncestors

def retireCollectionAuthorityTree (root : CollectionAuthorityAddress V) : Step V S Unit :=
  retireCollectionAuthorities fun candidate =>
    candidate == root || (root.below candidate &&
      (candidate.collectionAncestors[root.collectionAncestors.length]?).any fun owner =>
        owner.parentAuthority == root.authority)

def retireMapKeyCollections (key : V) (generation : UInt64) : Step V S Unit :=
  retireCollectionAuthorities fun candidate => address.below candidate &&
    candidate.collectionAncestors[address.collectionAncestors.length]? ==
      some ⟨address.authority, key, generation⟩

/-- Drops the collections that were built for a row which did not come to be. -/
def discardUnattachedCollectionAuthorities (ownerRows : Ancestry) : Step V S Unit := do
  let session ← get
  let discarded := session.machine.collectionAuthorities.keys.filter fun address =>
    address.ownerAncestors == ownerRows
  if discarded ≠ [] then
    let emitting := session.work.emit
    modifyWork fun work => { work with
      authorityDeltas := work.authorityDeltas.filter fun delta =>
        !delta.collectionAddress.any discarded.contains
      pendingCollectionOperations := work.pendingCollectionOperations.filter fun operation =>
        !discarded.contains operation.1.address
      emit := false }
    retireCollectionAuthorities discarded.contains
    modifyWork fun work => { work with emit := emitting }

/-- Notes an operation of the turn and tells whether it is new. -/
def admitCollectionOperation (key : PendingCollectionOperationKey V)
    (operation : PendingCollectionOperation V) : Step V S Bool := do
  let session ← get
  match session.work.pendingCollectionOperations.lookup key with
  | none =>
    modifyWork fun work => { work with
      pendingCollectionOperations := work.pendingCollectionOperations ++ [(key, operation)] }
    pure true
  | some earlier =>
    if earlier = operation then
      pure false
    else if session.work.emit then
      attempt (.error (.evaluation ("conflicting MAP/SET operations address the same key " ++
        "or item in one logical turn")))
    else
      modifyWork fun work => { work with
        pendingCollectionOperations := work.pendingCollectionOperations.map fun entry =>
          if entry.1 = key then (key, operation) else entry }
      pure true

def nextCollectionRevision (current : UInt64) : Step V S UInt64 := do
  let session ← get
  if session.work.emit then
    attempt (checkedSucc session.machine.turnSequence
      (.evaluation "collection authority revision overflow"))
  else
    pure current

def mapAuthority (doing : String) : Step V S (MapAuthority V) := do
  let session ← get
  match session.machine.collectionAuthorities[address]? with
  | some (.map authority) => pure authority
  | _ => attempt (.error (.invalidPlan ("MAP authority " ++ toString address.authority ++
      " disappeared before " ++ doing)))

def setAuthority (doing : String) : Step V S (SetAuthority V) := do
  let session ← get
  match session.machine.collectionAuthorities[address]? with
  | some (.set authority) => pure authority
  | _ => attempt (.error (.invalidPlan ("SET authority " ++ toString address.authority ++
      " disappeared before " ++ doing)))

/-- The generation of a map key, a fresh one for a new key. -/
def ensureMapKeyGeneration (key : V) : Step V S UInt64 := do
  let authority ← mapAuthority address "key-scope allocation"
  let name := "MAP authority " ++ toString address.authority
  match authority.keyGenerations[key]? with
  | some generation =>
    attempt (reject (generation = 0) (.invalidPlan (name ++ " contains a zero key generation")))
    pure generation
  | none =>
    attempt (reject (key ∈ authority.entries)
      (.invalidPlan (name ++ " contains a key without a live generation")))
    recordCollectionAuthorityUndo address
    let generation := authority.nextKeyGeneration
    attempt (reject (generation = 0)
      (.invalidPlan (name ++ " exhausted its key generation space")))
    let next ← attempt (checkedSucc generation
      (.evaluation (name ++ " key generation overflow")))
    putCollection address (.map { authority with
      nextKeyGeneration := next
      keyGenerations := authority.keyGenerations.insert key generation })
    pure generation

/-- The collections inside a map value live in the entry of its key. -/
def validateMapValueAuthorities (plan : Plan V S) (machine : MachineInstance V S)
    (address : CollectionAuthorityAddress V) (key : V) (generation : UInt64) (value : V) :
    Except Error Unit :=
  (plan.valueCollectionAuthorities value).forM fun child => do
    reject (¬(address.below child && child.collectionAncestors[address.collectionAncestors.length]?
        == some ⟨address.authority, key, generation⟩))
      (.evaluation ("collection authority " ++ toString child.authority ++
        " is not constructed in MAP authority " ++ toString address.authority ++
        " key generation " ++ toString generation))
    reject (child ∉ machine.collectionAuthorities) (.evaluation ("collection authority " ++
      toString child.authority ++ " escaped after its owning MAP key generation was retired"))

def submitMapUpsert (plan : Plan V S) (address : CollectionAuthorityAddress V) (key value : V) :
    Step V S Unit := do
  let fresh ← admitCollectionOperation ⟨false, address, key⟩ (.mapUpsert value)
  if fresh then
    consume 1
    let generation ← ensureMapKeyGeneration address key
    let session ← get
    attempt (validateMapValueAuthorities plan session.machine address key generation value)
    recordCollectionAuthorityUndo address
    let authority ← mapAuthority address "upsert"
    let revision ← nextCollectionRevision authority.revision
    let previous := authority.entries[key]?
    if previous ≠ some value then
      putCollection address (.map { authority with
        entries := authority.entries.insert key value
        revision := revision
        touched := authority.touched || session.work.emit })
      let retained := plan.valueCollectionAuthorities value
      let replaced := previous.elim [] plan.valueCollectionAuthorities
      (replaced.filter fun address => !retained.contains address).forM retireCollectionAuthorityTree
      pushEmitted (.mapUpsert address revision key value)

def submitMapRemove (key : V) : Step V S Unit := do
  let fresh ← admitCollectionOperation ⟨false, address, key⟩ .mapRemove
  if fresh then
    consume 1
    recordCollectionAuthorityUndo address
    let authority ← mapAuthority address "removal"
    let revision ← nextCollectionRevision authority.revision
    let session ← get
    let changed := key ∈ authority.entries
    let generation := authority.keyGenerations[key]?
    putCollection address (.map { authority with
      entries := authority.entries.erase key
      keyGenerations := authority.keyGenerations.erase key
      revision := if changed then revision else authority.revision
      touched := authority.touched || (changed && session.work.emit) })
    attempt (reject (changed ∧ generation = none) (.invalidPlan ("MAP authority " ++
      toString address.authority ++ " removed a key without a live generation")))
    generation.forM (retireMapKeyCollections address key)
    if changed then
      pushEmitted (.mapRemove address revision key)

def submitSetAdd (item : V) : Step V S Unit := do
  let fresh ← admitCollectionOperation ⟨true, address, item⟩ .setAdd
  if fresh then
    consume 1
    recordCollectionAuthorityUndo address
    let authority ← setAuthority address "add"
    let revision ← nextCollectionRevision authority.revision
    let session ← get
    if item ∉ authority.items then
      putCollection address (.set { authority with
        items := authority.items.insert item
        revision := revision
        touched := authority.touched || session.work.emit })
      pushEmitted (.setAdd address revision item)

def submitSetRemove (item : V) : Step V S Unit := do
  let fresh ← admitCollectionOperation ⟨true, address, item⟩ .setRemove
  if fresh then
    consume 1
    recordCollectionAuthorityUndo address
    let authority ← setAuthority address "removal"
    let revision ← nextCollectionRevision authority.revision
    let session ← get
    if item ∈ authority.items then
      putCollection address (.set { authority with
        items := authority.items.erase item
        revision := revision
        touched := authority.touched || session.work.emit })
      pushEmitted (.setRemove address revision item)

/-- Notes what a producer place asks for and tells whether that changed. -/
def updateCollectionProducer (site : CollectionProducerSite V)
    (candidate : CollectionProducerCandidate V) : Step V S Bool := do
  let session ← get
  let known := session.machine.collectionProducers[site]?
  if known = some candidate then
    pure false
  else
    attempt (reject (known.isSome ∧ session.work.emit = false) (.evaluation
      ("collection authority producer at expression " ++ toString site.reportedNumber ++
        " changed outside an atomic turn")))
    recordCollectionProducerUndo site
    modifyMachine fun machine => { machine with
      collectionProducers := machine.collectionProducers.insert site candidate }
    pure true

end BoonCircuit.Executor
