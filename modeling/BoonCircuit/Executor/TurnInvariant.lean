import BoonCircuit.Executor.UndoSpec

/-!
# The invariant of a turn in progress

At every point of a turn, also right after a failure, the logs lead back to the
machine the turn began with: the positional log rewinds the authority, and each
journal remembers the first value of every place that changed.
-/

namespace BoonCircuit.Executor

open Lib Checks Covered BTreeSet
open Lib.Action (attempt exec wp)

variable {V S : Type} [RuntimeValue V]

/-- The parts of a turn's work that a rollback reads, and the calls still to be committed. -/
structure UndoLogs (V S : Type) [RuntimeValue V] where
  authorityUndo : List (AuthorityUndo V)
  undoRootStates : BTreeSet StateId
  undoRowFields : BTreeSet RowField
  undoCollectionAuthorities : BTreeSet (CollectionAuthorityAddress V)
  undoCollectionProducers : BTreeSet (CollectionProducerSite V)
  listRevisionUndo : BTreeMap ListId UInt64
  effectActivationUndo : BTreeMap EffectConsumer (Option EffectActivation)
  transientEffectResultUndo : BTreeMap TransientEffectResultKey (Option V)
  committed : List TransientEffectCallId
  completed : List (TransientEffectCallId × PendingTransientEffect S)
  updated : List (TransientEffectCallId × PendingTransientEffect S)
  staged : List (TransientEffectInvocation V)

def Work.logs (work : Work V S) : UndoLogs V S where
  authorityUndo := work.authorityUndo
  undoRootStates := work.undoRootStates
  undoRowFields := work.undoRowFields
  undoCollectionAuthorities := work.undoCollectionAuthorities
  undoCollectionProducers := work.undoCollectionProducers
  listRevisionUndo := work.listRevisionUndo
  effectActivationUndo := work.effectActivationUndo
  transientEffectResultUndo := work.transientEffectResultUndo
  committed := work.committedTransientEffects
  completed := work.completedTransientEffects
  updated := work.updatedTransientEffects
  staged := work.transientEffects

/-- The row that a structural log entry adds or removes. -/
def AuthorityUndo.structuralRow : AuthorityUndo V → Option RowId
  | .appendRow row .. | .removeRow row .. => some row
  | _ => none

namespace UndoLogs

/-- Rows that were appended or removed in the turn. -/
def structural (logs : UndoLogs V S) (row : RowId) : Prop :=
  ∃ entry ∈ logs.authorityUndo, entry.structuralRow = some row

def covered (logs : UndoLogs V S) : Covered V where
  roots state := state ∈ logs.undoRootStates
  rowFields entry := logs.structural entry.row ∨ entry ∈ logs.undoRowFields
  lists list := ∃ row, logs.structural row ∧ row.list = list
  collections address := address ∈ logs.undoCollectionAuthorities
  producers site := site ∈ logs.undoCollectionProducers

/-- What a rollback makes of a pending call: the state in its last update, or else in its last
completion, or its absence when it was committed.  The rollback leaves other calls alone. -/
def lastWord (logs : UndoLogs V S) (call : TransientEffectCallId) :
    Option (Option (PendingTransientEffect S)) :=
  match lastWritten logs.updated call with
  | some previous => some (some previous)
  | none =>
    match lastWritten logs.completed call with
    | some previous => some (some previous)
    | none => if call ∈ logs.committed then some none else none

end UndoLogs

/-- The revision of a list. -/
def MachineInstance.revisionOf (machine : MachineInstance V S) (list : ListId) : UInt64 :=
  (machine.lists[list]?.map ListState.revision).getD 0

/-- What a machine keeps about effects. -/
def MachineInstance.effects (machine : MachineInstance V S) :=
  (machine.effectActivations, machine.transientEffectResults, machine.pendingTransientEffects,
    machine.launchEpoch, machine.transientEffectScope, machine.nextTransientEffectSequence)

/-- Pending and requested calls of this launch have numbers of their own, and requests have
numbers from a given one on. -/
structure Numbered (floor : UInt64) (machine : MachineInstance V S)
    (requests : List (TransientEffectInvocation V)) : Prop where
  floor_le : floor ≤ machine.nextTransientEffectSequence
  late : ∀ request ∈ requests, floor ≤ request.callId.sequence
  pending : ∀ {call : TransientEffectCallId}, call ∈ machine.pendingTransientEffects →
    call.launchEpoch = machine.launchEpoch → call.sequence < machine.nextTransientEffectSequence
  requested : ∀ request ∈ requests, request.callId.launchEpoch = machine.launchEpoch ∧
    request.callId.sequence < machine.nextTransientEffectSequence
  distinct : (requests.map TransientEffectInvocation.callId).Nodup
  /-- A request that is pending already is pending as itself. -/
  known : ∀ request ∈ requests, ∀ {pending : PendingTransientEffect S},
    machine.pendingTransientEffects[request.callId]? = some pending →
    pending.invocationId = request.invocationId ∧ pending.owner = request.owner ∧
      pending.executionScope = machine.transientEffectScope

/-- A pending call was pending before, under the same owner, and the rows of that owner are
still there. -/
structure Attached (initial machine : MachineInstance V S) (call : TransientEffectCallId)
    (pending : PendingTransientEffect S) : Prop where
  known : ∃ earlier, initial.pendingTransientEffects[call]? = some earlier ∧
    earlier.owner = pending.owner
  rows : ∀ row ∈ pending.owner.ancestry, (initial.row? row).isSome → (machine.row? row).isSome

/-- The logs lead from the machine back to the initial one. -/
structure Undoable (initial machine : MachineInstance V S) (logs : UndoLogs V S) : Prop where
  rewinds : Rewinds (fun entry => exec (undoAuthority entry)) Similar nothing initial
    logs.authorityUndo logs.covered machine
  listIds : ∀ list : ListId, list ∈ machine.lists ↔ list ∈ initial.lists
  revised : ∀ list : ListId, list ∈ logs.listRevisionUndo → list ∈ initial.lists
  revisions : Records logs.listRevisionUndo initial.revisionOf machine.revisionOf
  activations : Records logs.effectActivationUndo (fun key => initial.effectActivations[key]?)
    (fun key => machine.effectActivations[key]?)
  results : Records logs.transientEffectResultUndo (fun key => initial.transientEffectResults[key]?)
    (fun key => machine.transientEffectResults[key]?)
  pending : ∀ call, logs.lastWord call = none →
    machine.pendingTransientEffects[call]? = initial.pendingTransientEffects[call]?
  numbered : Numbered initial.nextTransientEffectSequence machine logs.staged
  /-- This is about the calls from before the turn. -/
  attached : ∀ {call : TransientEffectCallId} {pending : PendingTransientEffect S},
    call.sequence < initial.nextTransientEffectSequence →
    machine.pendingTransientEffects[call]? = some pending → Attached initial machine call pending

/-- A turn that can be taken back. -/
structure Fallen (initial : MachineInstance V S) (session : Session V S) : Prop where
  undoable : Undoable initial session.machine session.work.logs
  sound : session.machine.Sound

/-- A turn in progress: it can be taken back and the machine is well formed. -/
structure InTurn (initial : MachineInstance V S) (session : Session V S) : Prop where
  undoable : Undoable initial session.machine session.work.logs
  wellFormed : session.machine.WellFormed

theorem MachineInstance.WellFormed.sound {machine : MachineInstance V S}
    (wellFormed : machine.WellFormed) : machine.Sound :=
  fun _ _ found => (wellFormed.lists found).sound

theorem InTurn.fallen {initial : MachineInstance V S} {session : Session V S}
    (inTurn : InTurn initial session) : Fallen initial session :=
  ⟨inTurn.undoable, inTurn.wellFormed.sound⟩

section Covers

variable {logs : UndoLogs V S} {entry : AuthorityUndo V}

/-- The logs with a positional entry and more covered places. -/
def UndoLogs.note (logs : UndoLogs V S) (entry : AuthorityUndo V) : UndoLogs V S :=
  { logs with
    authorityUndo := logs.authorityUndo ++ [entry]
    undoRootStates := match entry with
      | .rootState state .. => logs.undoRootStates.insert state
      | _ => logs.undoRootStates
    undoRowFields := match entry with
      | .rowField row field .. => logs.undoRowFields.insert ⟨row, field⟩
      | _ => logs.undoRowFields
    undoCollectionAuthorities := match entry with
      | .collection address _ => logs.undoCollectionAuthorities.insert address
      | _ => logs.undoCollectionAuthorities
    undoCollectionProducers := match entry with
      | .collectionProducer site _ => logs.undoCollectionProducers.insert site
      | _ => logs.undoCollectionProducers }

/-- What an entry covers. -/
def Covered.add (covered : Covered V) : AuthorityUndo V → Covered V
  | .rootState state .. => covered.addRoot state
  | .rowField row field .. => covered.addRowField ⟨row, field⟩
  | .appendRow row .. | .removeRow row .. => covered.addRow row
  | .reorderRows .. => covered
  | .collection address _ => covered.addCollection address
  | .collectionProducer site _ => covered.addProducer site

theorem UndoLogs.structural_note {row : RowId} : (logs.note entry).structural row ↔
    entry.structuralRow = some row ∨ logs.structural row := by
  change (∃ other ∈ logs.authorityUndo ++ [entry], other.structuralRow = some row) ↔ _
  simp only [List.mem_append, List.mem_singleton, or_and_right, exists_or, exists_eq_left, or_comm]
  rfl

theorem UndoLogs.covered_note : (logs.note entry).covered = logs.covered.add entry := by
  ext other
  · cases entry with
    | rootState => exact mem_insert
    | _ => exact Iff.rfl
  · change (logs.note entry).structural other.row ∨ other ∈ (logs.note entry).undoRowFields ↔ _
    rw [UndoLogs.structural_note]
    cases entry with
    | rowField row field =>
      change ((none : Option RowId) = some other.row ∨ _) ∨
        other ∈ logs.undoRowFields.insert ⟨row, field⟩ ↔ _
      rw [mem_insert, or_left_comm]
      exact or_congr_right (or_congr_left (or_iff_right nofun))
    | appendRow row | removeRow row =>
      change (some row = some other.row ∨ _) ∨ _ ↔ _
      rw [Option.some.injEq, eq_comm, or_assoc]
      rfl
    | _ => exact or_congr_left (or_iff_right nofun)
  · have lists : (logs.note entry).covered.lists other ↔
        (∃ row, entry.structuralRow = some row ∧ row.list = other) ∨ logs.covered.lists other := by
      simp only [UndoLogs.covered, UndoLogs.structural_note, or_and_right, exists_or]
    rw [lists]
    cases entry with
    | appendRow row | removeRow row => simp [AuthorityUndo.structuralRow, add, addRow, eq_comm]
    | _ => exact or_iff_right fun ⟨_, absent, _⟩ => nomatch absent
  · cases entry with
    | collection => exact mem_insert
    | _ => exact Iff.rfl
  · cases entry with
    | collectionProducer => exact mem_insert
    | _ => exact Iff.rfl

end Covers

section Changes

variable {initial machine next : MachineInstance V S} {logs : UndoLogs V S}
  {entry : AuthorityUndo V}

theorem Numbered.of_same {floor : UInt64} {requests : List (TransientEffectInvocation V)}
    (numbered : Numbered floor machine requests)
    (pending : next.pendingTransientEffects = machine.pendingTransientEffects)
    (epoch : next.launchEpoch = machine.launchEpoch)
    (scope : next.transientEffectScope = machine.transientEffectScope)
    (sequence : next.nextTransientEffectSequence = machine.nextTransientEffectSequence) :
    Numbered floor next requests := by
  obtain ⟨bound, late, fresh, requested, distinct, known⟩ := numbered
  constructor
  · exact sequence ▸ bound
  · exact late
  · rw [pending, epoch, sequence]
    exact fresh
  · rw [epoch, sequence]
    exact requested
  · exact distinct
  · rw [pending, scope]
    exact known

theorem Undoable.note (undoable : Undoable initial machine logs)
    (inverts : ∀ state, Similar (logs.covered.add entry) state next →
      ∃ previous, exec (undoAuthority entry) state = (.ok (), previous) ∧
        Similar logs.covered previous machine) (effects : next.effects = machine.effects)
    (listIds : ∀ list : ListId, list ∈ next.lists ↔ list ∈ machine.lists)
    (revisions : next.revisionOf = machine.revisionOf)
    (rows : ∀ {call : TransientEffectCallId} {pending : PendingTransientEffect S},
      machine.pendingTransientEffects[call]? = some pending → ∀ row ∈ pending.owner.ancestry,
      (machine.row? row).isSome → (next.row? row).isSome) :
    Undoable initial next (logs.note entry) := by
  simp only [MachineInstance.effects, Prod.mk.injEq] at effects
  obtain ⟨activations, results, pending, epoch, scope, sequence⟩ := effects
  exact {
    rewinds := by
      rw [UndoLogs.covered_note]
      exact undoable.rewinds.concat inverts
    listIds := fun list => (listIds list).trans (undoable.listIds list)
    revised := undoable.revised
    revisions := revisions ▸ undoable.revisions
    activations := activations ▸ undoable.activations
    results := results ▸ undoable.results
    pending := pending ▸ undoable.pending
    numbered := undoable.numbered.of_same pending epoch scope sequence
    attached := fun old found => by
      rw [pending] at found
      obtain ⟨known, kept⟩ := undoable.attached old found
      exact ⟨known, fun row member present => rows found row member (kept row member present)⟩ }

theorem Undoable.rewinds_agree (undoable : Undoable initial machine logs)
    (agree : Agree logs.covered next machine) :
    Rewinds (fun entry => exec (undoAuthority entry)) Similar nothing initial
      logs.authorityUndo logs.covered next :=
  undoable.rewinds.unlogged fun _ similar => similar.of_agree agree

theorem Undoable.unlogged (undoable : Undoable initial machine logs)
    (agree : Agree logs.covered next machine) (effects : next.effects = machine.effects)
    (revisions : next.revisionOf = machine.revisionOf) : Undoable initial next logs := by
  simp only [MachineInstance.effects, Prod.mk.injEq] at effects
  obtain ⟨activations, results, pending, epoch, scope, sequence⟩ := effects
  exact {
    rewinds := undoable.rewinds_agree agree
    listIds := fun list => by
      rw [← undoable.listIds, BTreeMap.mem_iff_exists, BTreeMap.mem_iff_exists]
      have lists := agree.lists list
      cases left : next.lists[list]? <;> cases right : machine.lists[list]? <;>
        rw [right] at lists <;> simp_all
    revised := undoable.revised
    revisions := revisions ▸ undoable.revisions
    activations := activations ▸ undoable.activations
    results := results ▸ undoable.results
    pending := pending ▸ undoable.pending
    numbered := undoable.numbered.of_same pending epoch scope sequence
    attached := fun old found => by
      rw [pending] at found
      obtain ⟨known, kept⟩ := undoable.attached old found
      exact ⟨known, fun row member present => agree.isSome_row? row ▸ kept row member present⟩ }

end Changes

end BoonCircuit.Executor
