import BoonCircuit.Executor.State
import BoonCircuit.Lib.Coalesce

/-!
# Deltas of a turn

A turn reports what it changed as deltas, which a consumer replays on its own copy.
Writes of one target are coalesced before they are reported.
-/

namespace BoonCircuit.Executor

open Lib Coalesce

abbrev ImportId : Type := Nat

inductive ValueTarget where
  | state (state : StateId)
  | field (field : FieldId)
  | rowField (row : RowId) (field : FieldId)
  deriving DecidableEq

structure RowSnapshot (V : Type) where
  id : RowId
  fields : BTreeMap FieldId V
  provenance : BTreeMap ScopeId RowId

inductive Delta (V : Type) where
  | setValue (target : ValueTarget) (value : V)
  | clearValue (target : ValueTarget)
  | setDistributedImport (importId : ImportId) (value : V)
  | clearDistributedImport (importId : ImportId)
  | insertRow (row : RowSnapshot V)
  | removeRow (row : RowId)
  | bindSource (row : RowId) (source : SourceId) (bindingId : UInt64)
  | unbindSource (row : RowId) (source : SourceId) (bindingId : UInt64)

/-- Where a consumer keeps something. -/
inductive Place where
  | value (target : ValueTarget)
  | distributedImport (importId : ImportId)
  | row (row : RowId)
  | binding (row : RowId) (source : SourceId)
  deriving DecidableEq

variable {V : Type} {deltas : List (Delta V)} {preserve : ValueTarget → Bool} {place : Place}

/-- The place whose earlier update is replaced. -/
def Delta.slot (preserve : ValueTarget → Bool) : Delta V → Option Place
  | .setValue target _ => if preserve target then none else some (.value target)
  | .setDistributedImport importId _ | .clearDistributedImport importId =>
    some (.distributedImport importId)
  | _ => none

def coalesceDeltasPreserving (deltas : List (Delta V)) (preserve : ValueTarget → Bool) :
    List (Delta V) :=
  coalesce (Delta.slot preserve) deltas

inductive Content (V : Type) where
  | value (value : V)
  | row (provenance : BTreeMap ScopeId RowId)
  | binding (bindingId : UInt64)

abbrev Consumer (V : Type) : Type := Place → Option (Content V)

/-- What a delta leaves in a place, if it concerns the place. -/
def Delta.effect (place : Place) : Delta V → Option (Option (Content V))
  | .setValue target value => if place = .value target then some (some (.value value)) else none
  | .clearValue target => if place = .value target then some none else none
  | .setDistributedImport importId value =>
    if place = .distributedImport importId then some (some (.value value)) else none
  | .clearDistributedImport importId =>
    if place = .distributedImport importId then some none else none
  | .insertRow row =>
    match place with
    | .row id => if id = row.id then some (some (.row row.provenance)) else none
    | .value (.rowField id field) =>
      if id = row.id then some (row.fields[field]?.map .value) else none
    | _ => none
  | .removeRow row =>
    match place with
    | .row id | .value (.rowField id _) => if id = row then some none else none
    | _ => none
  | .bindSource row source bindingId =>
    if place = .binding row source then some (some (.binding bindingId)) else none
  | .unbindSource row source _ => if place = .binding row source then some none else none

def Consumer.replay (consumer : Consumer V) (deltas : List (Delta V)) : Consumer V :=
  deltas.foldl (fun consumer delta place => (delta.effect place).getD (consumer place)) consumer

theorem Consumer.replay_apply {consumer : Consumer V} :
    consumer.replay deltas place = (last (Delta.effect place) deltas).getD (consumer place) := by
  induction deltas using List.reverseRecOn with
  | nil => rfl
  | append_singleton deltas delta ih =>
    unfold replay at ih ⊢
    rw [last_append, last_singleton]
    cases effect : delta.effect place <;> simp [effect, ih]

theorem Delta.isSome_effect_iff {delta : Delta V} {other : Place}
    (slotted : delta.slot preserve = some other) : (delta.effect place).isSome ↔ other = place := by
  cases delta <;> grind [Delta.slot, Delta.effect]

/-- Coalesced deltas are replayed like the others if and only if no place ends with a write that
was moved before another effect on it. -/
theorem replay_coalesceDeltasPreserving_iff :
    (∀ consumer : Consumer V,
      consumer.replay (coalesceDeltasPreserving deltas preserve) = consumer.replay deltas) ↔
      ∀ place seen, (trace (Delta.slot preserve) (Delta.effect place) place deltas).later =
        some seen → last (Delta.effect place) deltas = some seen := by
  have kept : ∀ place, last (Delta.effect place) (coalesceDeltasPreserving deltas preserve) =
      last (Delta.effect place) deltas ↔ _ := fun place =>
    last_coalesce_iff (fun _ slotted => (Delta.isSome_effect_iff slotted).mpr rfl)
      fun _ _ slotted other => by simpa using mt (Delta.isSome_effect_iff slotted).mp other
  rw [← forall_congr' kept]
  constructor
  · intro same place
    have absent := congrFun (same fun _ => none) place
    have present := congrFun (same fun _ => some (.binding 0)) place
    rw [Consumer.replay_apply, Consumer.replay_apply] at absent present
    generalize last (Delta.effect place) (coalesceDeltasPreserving deltas preserve) = short at *
    generalize last (Delta.effect place) deltas = full at *
    cases short <;> cases full <;> grind
  · intro same consumer
    funext place
    rw [Consumer.replay_apply, Consumer.replay_apply, same]

/-- A value that is cleared and written again stays cleared. -/
theorem coalesced_write_is_lost :
    ¬∀ consumer : Consumer Bool,
      consumer.replay (coalesceDeltasPreserving [.setValue (.state 0) false,
        .clearValue (.state 0), .setValue (.state 0) true] fun _ => false) =
      consumer.replay [.setValue (.state 0) false, .clearValue (.state 0),
        .setValue (.state 0) true] := by
  intro same
  have lost : none = some (Content.value true) := congrFun (same fun _ => none) (.value (.state 0))
  cases lost

end BoonCircuit.Executor
