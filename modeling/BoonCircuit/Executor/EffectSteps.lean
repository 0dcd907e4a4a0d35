import BoonCircuit.Executor.CollectionSteps
import BoonCircuit.Lib.Word

/-!
# Effect steps of a turn

Activations and results are journaled before they change.  Every change of the
pending calls leaves a word about the call in one of their three logs, and a new
call has a number that no pending call has.
-/

namespace BoonCircuit.Executor

open Lib Checks BTreeMap Action UndoLogs
open List hiding getElem?_insert

variable {V S : Type} [RuntimeValue V]

section Tables

variable {initial machine : MachineInstance V S} {logs : UndoLogs V S}
  {call : TransientEffectCallId} {requests : List (TransientEffectInvocation V)} {floor : UInt64}

theorem Undoable.rewinds_beside {next : MachineInstance V S}
    (undoable : Undoable initial machine logs) (same : next.authority = machine.authority) :
    Rewinds (fun entry => exec (undoAuthority entry)) Similar Covered.nothing initial
      logs.authorityUndo logs.covered next :=
  undoable.rewinds_agree (.of_authority_eq same)

theorem Undoable.changeActivations {activations : BTreeMap EffectConsumer EffectActivation}
    {consumer : EffectConsumer} (undoable : Undoable initial machine logs)
    (elsewhere : ∀ other, other ≠ consumer →
      activations[other]? = machine.effectActivations[other]?) :
    Undoable initial { machine with effectActivations := activations }
      { logs with effectActivationUndo :=
          journalize logs.effectActivationUndo consumer machine.effectActivations[consumer]? } :=
  { undoable with
  rewinds := undoable.rewinds_beside rfl
  activations := undoable.activations.journalize elsewhere
  numbered := undoable.numbered.of_same rfl rfl rfl rfl
  attached old found := ⟨(undoable.attached old found).known, (undoable.attached old found).rows⟩ }

theorem Undoable.changeResults {results : BTreeMap TransientEffectResultKey V}
    {key : TransientEffectResultKey} (undoable : Undoable initial machine logs)
    (elsewhere : ∀ other, other ≠ key → results[other]? = machine.transientEffectResults[other]?) :
    Undoable initial { machine with transientEffectResults := results }
      { logs with transientEffectResultUndo :=
          journalize logs.transientEffectResultUndo key machine.transientEffectResults[key]? } :=
  { undoable with
  rewinds := undoable.rewinds_beside rfl
  results := undoable.results.journalize elsewhere
  numbered := undoable.numbered.of_same rfl rfl rfl rfl
  attached old found := ⟨(undoable.attached old found).known, (undoable.attached old found).rows⟩ }

theorem UndoLogs.lastWord_eq_none_iff : logs.lastWord call = none ↔
    lastWritten logs.updated call = none ∧ lastWritten logs.completed call = none ∧
      call ∉ logs.committed := by
  unfold lastWord
  cases lastWritten logs.updated call <;> cases lastWritten logs.completed call <;> simp

variable {sequence : UInt64} {request : TransientEffectInvocation V}

theorem Undoable.changePending {pending : BTreeMap TransientEffectCallId (PendingTransientEffect S)}
    {committed : List TransientEffectCallId}
    {completed updated : List (TransientEffectCallId × PendingTransientEffect S)}
    (undoable : Undoable initial machine logs) (accounted : ∀ call, lastWord { logs with
        committed := committed, completed := completed, updated := updated } call = none →
      logs.lastWord call = none ∧ pending[call]? = machine.pendingTransientEffects[call]?)
    (numbered : Numbered initial.nextTransientEffectSequence { machine with
      pendingTransientEffects := pending, nextTransientEffectSequence := sequence } requests)
    (kept : ∀ {call : TransientEffectCallId} {next : PendingTransientEffect S},
      call.sequence < initial.nextTransientEffectSequence → pending[call]? = some next →
      ∃ previous, machine.pendingTransientEffects[call]? = some previous ∧
        previous.owner = next.owner) :
    Undoable initial { machine with
        pendingTransientEffects := pending, nextTransientEffectSequence := sequence }
      { logs with
        committed := committed, completed := completed, updated := updated, staged := requests } :=
  { undoable with
  rewinds := undoable.rewinds_beside rfl
  pending call silent := by
    obtain ⟨silent, same⟩ := accounted call silent
    exact same.trans (undoable.pending call silent)
  numbered := numbered
  attached old found := by
    obtain ⟨previous, present, owner⟩ := kept old found
    obtain ⟨⟨earlier, known, same⟩, rows⟩ := undoable.attached old present
    exact ⟨⟨earlier, known, same.trans owner⟩, owner ▸ rows⟩ }

section Numbered

variable (numbered : Numbered floor machine requests)

include numbered

theorem Numbered.erase : Numbered floor { machine with
    pendingTransientEffects := machine.pendingTransientEffects.erase call } requests :=
  { numbered with
  pending member := numbered.pending (mem_erase.mp member).2
  known request member _ found :=
    numbered.known request member (getElem?_erase_eq_some_iff.mp found).2 }

theorem Numbered.sublist {fewer : List (TransientEffectInvocation V)}
    (sublist : fewer.Sublist requests) :
    Numbered floor machine fewer := { numbered with
  late request member := numbered.late request (sublist.subset member)
  requested request member := numbered.requested request (sublist.subset member)
  distinct := (sublist.map _).nodup numbered.distinct
  known request member := numbered.known request (sublist.subset member) }

theorem Numbered.stage
    (callId : request.callId = ⟨machine.launchEpoch, machine.nextTransientEffectSequence⟩)
    (later : machine.nextTransientEffectSequence < sequence) :
    Numbered floor { machine with nextTransientEffectSequence := sequence }
      (requests ++ [request]) where
  floor_le := UInt64.le_trans numbered.floor_le (UInt64.le_of_lt later)
  late other member := by
    rcases mem_append.mp member with member | member
    · exact numbered.late other member
    · rw [mem_singleton.mp member, callId]
      exact numbered.floor_le
  pending member same := UInt64.lt_trans (numbered.pending member same) later
  requested other member := by
    rcases mem_append.mp member with member | member
    · obtain ⟨epoch, earlier⟩ := numbered.requested other member
      exact ⟨epoch, UInt64.lt_trans earlier later⟩
    · rw [mem_singleton.mp member, callId]
      exact ⟨rfl, later⟩
  distinct := by
    rw [map_append, nodup_append]
    refine ⟨numbered.distinct, by simp, ?_⟩
    intro first member second last same
    obtain ⟨other, present, rfl⟩ := mem_map.mp member
    rw [map_singleton, mem_singleton] at last
    have earlier := (numbered.requested other present).2
    rw [same, last, callId] at earlier
    exact UInt64.lt_irrefl _ earlier
  known other member pending found := by
    rcases mem_append.mp member with member | member
    · exact numbered.known other member found
    · rw [mem_singleton.mp member, callId] at found
      have earlier := numbered.pending (mem_iff_exists.mpr ⟨pending, found⟩) rfl
      exact absurd earlier (UInt64.lt_irrefl _)

theorem Numbered.replace {previous next : PendingTransientEffect S}
    (found : machine.pendingTransientEffects[call]? = some previous)
    (same : next.owner = previous.owner ∧ (floor ≤ call.sequence →
      next.invocationId = previous.invocationId ∧ next.executionScope = previous.executionScope)) :
    Numbered floor { machine with
      pendingTransientEffects := machine.pendingTransientEffects.insert call next } requests :=
  { numbered with
  pending {other} member := by
    apply numbered.pending
    rcases mem_insert.mp member with rfl | member
    · exact mem_iff_exists.mpr ⟨previous, found⟩
    · exact member
  known request member pending present := by
    rcases getElem?_insert_eq_some_iff.mp present with ⟨rfl, rfl⟩ | ⟨_, present⟩
    · obtain ⟨invocation, scope⟩ := same.2 (numbered.late request member)
      rw [invocation, same.1, scope]
      exact numbered.known request member found
    · exact numbered.known request member present }

theorem Numbered.commit {pending : PendingTransientEffect S} (member : request ∈ requests)
    (same : pending.invocationId = request.invocationId ∧ pending.owner = request.owner ∧
      pending.executionScope = machine.transientEffectScope) :
    Numbered floor { machine with
      pendingTransientEffects := machine.pendingTransientEffects.insert request.callId pending }
      requests := { numbered with
  pending {other} present epoch := by
    rcases mem_insert.mp present with rfl | present
    · exact (numbered.requested request member).2
    · exact numbered.pending present epoch
  known other otherMember pending present := by
    rcases getElem?_insert_eq_some_iff.mp present with ⟨equal, rfl⟩ | ⟨_, present⟩
    · rw [inj_on_of_nodup_map numbered.distinct otherMember member equal.symm]
      exact same
    · exact numbered.known other otherMember present }

end Numbered

end Tables

section Steps

variable {initial : MachineInstance V S} {before : Session V S} {consumer : EffectConsumer}
  {key : TransientEffectResultKey} {callId : TransientEffectCallId}

theorem keeps_deactivateEffectActivation (inTurn : InTurn initial before) :
    Keeps initial (deactivateEffectActivation consumer) before := by
  refine ⟨⟨?_, inTurn.wellFormed.lists, inTurn.wellFormed.touched⟩, rfl, rfl, rfl, id, rfl⟩
  apply inTurn.undoable.changeActivations
  intro other apart
  rw [getElem?_erase, if_neg (Ne.symm apart)]

theorem keeps_transientEffectResult (inTurn : InTurn initial before) :
    (∀ value, Keeps initial (setTransientEffectResult key value) before) ∧
      Keeps initial (clearTransientEffectResult key) before := by
  refine ⟨fun value => ?_, ?_⟩
  all_goals
    apply keeps_get_bind
    split
    · refine ⟨⟨?_, inTurn.wellFormed.lists, inTurn.wellFormed.touched⟩, rfl, rfl, rfl, id, rfl⟩
      apply inTurn.undoable.changeResults
      intro other apart
      simp only [getElem?_insert, getElem?_erase, if_neg (Ne.symm apart)]
    · exact keeps_pure inTurn

/-- The authority of a session and what its turn reports about it. -/
def Session.reports (session : Session V S) :=
  (session.machine.authority, session.work.authorityDeltas)

/-- Some calls go, and no number is given out. -/
structure Drops (dropped : TransientEffectCallId → PendingTransientEffect S → Prop)
    (before after : Session V S) : Prop where
  numbers : after.numbers = before.numbers
  pending : ∀ {call : TransientEffectCallId} {pending : PendingTransientEffect S},
    after.machine.pendingTransientEffects[call]? = some pending ↔
      before.machine.pendingTransientEffects[call]? = some pending ∧ ¬dropped call pending

/-- Calls are completed or cancelled. -/
structure Calm (dropped : TransientEffectCallId → PendingTransientEffect S → Prop)
    (before after : Session V S) : Prop extends Drops dropped before after where
  reports : after.reports = before.reports

section Drops

variable {first second third : Session V S}
  {dropped later : TransientEffectCallId → PendingTransientEffect S → Prop}

theorem Drops.requests (drops : Drops dropped first second) :
    second.work.transientEffects = first.work.transientEffects :=
  congrArg (fun numbers => numbers.2.2.2) drops.numbers

theorem Drops.scope (drops : Drops dropped first second) :
    second.machine.transientEffectScope = first.machine.transientEffectScope :=
  congrArg (fun numbers => numbers.2.1) drops.numbers

theorem Drops.of_calls (same : second.calls = first.calls) :
    Drops (fun _ _ => False) first second where
  numbers := congrArg Prod.snd same
  pending := by
    intro call pending
    rw [show second.machine.pendingTransientEffects = _ from congrArg Prod.fst same]
    exact (and_iff_left not_false).symm

theorem Drops.trans (drops : Drops dropped first second) (rest : Drops later second third) :
    Drops (fun call pending => dropped call pending ∨ later call pending) first third where
  numbers := rest.numbers.trans drops.numbers
  pending := by
    intro call pending
    rw [rest.pending, drops.pending, not_or, and_assoc]

theorem Drops.congr (drops : Drops dropped first second)
    (same : ∀ {call : TransientEffectCallId} {pending : PendingTransientEffect S},
      first.machine.pendingTransientEffects[call]? = some pending →
      (dropped call pending ↔ later call pending)) : Drops later first second where
  numbers := drops.numbers
  pending := by
    intro call pending
    rw [drops.pending]
    exact and_congr_right fun found => not_congr (same found)

end Drops

theorem inTurn_completePending (callId : TransientEffectCallId) (inTurn : InTurn initial before) :
    InTurn initial (completePending callId before) ∧
      Calm (fun call _ => call = callId) before (completePending callId before) := by
  unfold completePending
  cases found : before.machine.pendingTransientEffects[callId]? with
  | none =>
    refine ⟨inTurn, ⟨rfl, fun {call pending} => ?_⟩, rfl⟩
    refine (and_iff_left_of_imp fun present same => ?_).symm
    rw [same, found] at present
    cases present
  | some previous =>
    refine ⟨⟨?_, inTurn.wellFormed.lists, inTurn.wellFormed.touched⟩, ⟨rfl, ?_⟩, rfl⟩
    · apply inTurn.undoable.changePending
      · intro call silent
        rw [lastWord_eq_none_iff] at silent ⊢
        obtain ⟨updated, completed, committed⟩ := silent
        rw [lastWritten_concat] at completed
        split at completed
        · cases completed
        · next apart => exact ⟨⟨updated, completed, committed⟩, by
            rw [getElem?_erase, if_neg apart]⟩
      · exact inTurn.undoable.numbered.erase
      · exact fun _ present => ⟨_, (getElem?_erase_eq_some_iff.mp present).2, rfl⟩
    · intro call pending
      rw [getElem?_erase_eq_some_iff, and_comm, ne_comm]

theorem inTurn_cancelPending (callId : TransientEffectCallId) (inTurn : InTurn initial before) :
    InTurn initial (cancelPending callId before) ∧
      Calm (fun call _ => call = callId) before (cancelPending callId before) := by
  unfold cancelPending
  split
  · obtain ⟨⟨undoable, wellFormed⟩, calm⟩ := inTurn_completePending callId inTurn
    exact ⟨⟨undoable, wellFormed⟩, ⟨calm.numbers, calm.pending⟩, calm.reports⟩
  · next missing =>
    refine ⟨inTurn, ⟨rfl, fun {call pending} => (and_iff_left_of_imp ?_).symm⟩, rfl⟩
    rintro present rfl
    exact missing (mem_iff_exists.mpr ⟨pending, present⟩)

theorem inTurn_foldl_cancelPending {calls : List TransientEffectCallId}
    (inTurn : InTurn initial before) :
    InTurn initial (calls.foldl (fun session callId => cancelPending callId session) before) ∧
      Calm (fun call _ => call ∈ calls) before
        (calls.foldl (fun session callId => cancelPending callId session) before) := by
  induction calls generalizing before with
  | nil => exact ⟨inTurn, ⟨rfl, by simp⟩, rfl⟩
  | cons first calls ih =>
    obtain ⟨inTurn, calm⟩ := inTurn_cancelPending first inTurn
    obtain ⟨inTurn, later⟩ := ih inTurn
    refine ⟨inTurn, (calm.toDrops.trans later.toDrops).congr fun _ => ?_,
      later.reports.trans calm.reports⟩
    exact mem_cons.symm

variable {selected : PendingTransientEffect S → Bool} {number next : UInt64} {exhausted : Error}
  {request : TransientEffectInvocation V} {plan : Plan V S} (inTurn : InTurn initial before)
include inTurn

theorem wp_cancelPendingWhere {Failed : Session V S → Prop} :
    wp (cancelPendingWhere selected) Failed (fun _ after => InTurn initial after ∧
      Calm (fun _ pending => selected pending = true) before after) before := by
  obtain ⟨inTurn, calm⟩ := inTurn_foldl_cancelPending inTurn
  refine ⟨inTurn, calm.congr fun {call pending} found => ?_, calm.reports⟩
  rw [mem_map]
  constructor
  · rintro ⟨⟨_, other⟩, chosen, rfl⟩
    obtain ⟨member, chosen⟩ := mem_filter.mp chosen
    cases found.symm.trans (mem_toList_iff.mp member)
    exact chosen
  · exact fun chosen => ⟨(call, pending), mem_filter.mpr ⟨mem_toList found, chosen⟩, rfl⟩

theorem runs_completeTransientEffect {concurrent : String} :
    Runs initial (completeTransientEffect callId concurrent) before := by
  unfold Runs completeTransientEffect
  simp only [wp_bind, wp_get, wp_attempt_of_failed inTurn.fallen]
  exact fun _ _ => (inTurn_completePending callId inTurn).1

omit inTurn in
theorem checkedSucc_eq_ok_iff :
    checkedSucc number exhausted = .ok next ↔ number ≠ 0xFFFFFFFFFFFFFFFF ∧ number + 1 = next := by
  unfold checkedSucc
  rw [okOr_eq_ok_iff]
  by_cases last : number = 0xFFFFFFFFFFFFFFFF <;> simp [last]

omit inTurn in
theorem lt_of_checkedSucc (counted : checkedSucc number exhausted = .ok next) : number < next := by
  obtain ⟨room, rfl⟩ := checkedSucc_eq_ok_iff.mp counted
  rw [UInt64.lt_iff_toNat_lt, toNat_increment room]
  exact Nat.lt_succ_self _

theorem keeps_activate {activation : EffectActivation} :
    Keeps initial (do
      recordEffectActivationUndo consumer
      modifyMachine fun machine => { machine with
        effectActivations := machine.effectActivations.insert consumer activation }) before := by
  refine ⟨⟨?_, inTurn.wellFormed.lists, inTurn.wellFormed.touched⟩, rfl, rfl, rfl, id, rfl⟩
  apply inTurn.undoable.changeActivations
  intro other apart
  rw [getElem?_insert, if_neg (Ne.symm apart)]

/-- The call that an open gate asks for. -/
def EffectRequest.call? (request : EffectRequest V) (callId : TransientEffectCallId) :
    Option (TransientEffectInvocation V) :=
  request.intent.map fun intent =>
    ⟨callId, request.invocationId, request.effectId, request.owner, request.target, intent⟩

/-- The closed gate of a request ends the pending call of its operation and owner. -/
def EffectRequest.Closes (request : EffectRequest V) (session : Session V S)
    (pending : PendingTransientEffect S) : Prop :=
  request.intent = none ∧ pending.invocationId = request.invocationId ∧
    pending.owner = request.owner ∧ pending.executionScope = session.machine.transientEffectScope

/-- The name of the next call. -/
def Session.nextCall (session : Session V S) : TransientEffectCallId :=
  ⟨session.machine.launchEpoch, session.machine.nextTransientEffectSequence⟩

/-- The call is from before the turn, and its owner exists. -/
def MachineInstance.Owned (machine : MachineInstance V S) (call : TransientEffectCallId) : Prop :=
  call.sequence < machine.nextTransientEffectSequence ∧
    ∀ ⦃pending⦄, machine.pendingTransientEffects[call]? = some pending →
      ∀ row ∈ pending.owner.ancestry, (machine.row? row).isSome

/-- What a step does about calls: it spares some of those from before the turn, and it asks for
one call at most. -/
structure CallStep (initial : MachineInstance V S) (spared : PendingTransientEffect S → Prop)
    (asked : Option (TransientEffectInvocation V)) (before after : Session V S) : Prop where
  numbers : after.numbers = (before.machine.launchEpoch, before.machine.transientEffectScope,
    asked.elim before.machine.nextTransientEffectSequence
      fun _ => before.machine.nextTransientEffectSequence + 1,
    before.work.transientEffects ++ asked.toList)
  pending : ∀ ⦃call⦄, initial.Owned call → ∀ ⦃pending⦄,
    after.machine.pendingTransientEffects[call]? = some pending ↔
      before.machine.pendingTransientEffects[call]? = some pending ∧ spared pending

theorem wp_request {sequence : UInt64} (callId : request.callId = before.nextCall)
    (later : before.machine.nextTransientEffectSequence < sequence) :
    wp (do
      modifyMachine fun machine => { machine with nextTransientEffectSequence := sequence }
      consume 1
      modifyWork fun work => { work with
        transientEffects := work.transientEffects ++ [request] }) (Fallen initial)
      (fun _ after => InTurn initial after ∧
        after.machine.pendingTransientEffects = before.machine.pendingTransientEffects ∧
        after.numbers = (before.machine.launchEpoch, before.machine.transientEffectScope, sequence,
          before.work.transientEffects ++ [request])) before := by
  have numbered := inTurn.undoable.numbered.stage callId later
  have counted : InTurn initial { before with machine :=
      { before.machine with nextTransientEffectSequence := sequence } } := by
    refine ⟨?_, inTurn.wellFormed.lists, inTurn.wellFormed.touched⟩
    apply inTurn.undoable.changePending (fun call silent => ⟨silent, rfl⟩)
    · exact numbered.sublist (sublist_append_left _ _)
    · exact fun _ found => ⟨_, found, rfl⟩
  unfold consume modifyMachine modifyWork
  simp only [wp_bind, wp_modify, wp_get, wp_attempt]
  refine ⟨fun _ _ => ⟨⟨?_, inTurn.wellFormed.lists, inTurn.wellFormed.touched⟩, trivial, rfl⟩,
    fun _ _ => counted.fallen⟩
  exact inTurn.undoable.changePending (fun call silent => ⟨silent, rfl⟩) numbered
    fun _ found => ⟨_, found, rfl⟩

/-- A closed gate ends calls, an open one asks for a call under the next number. -/
theorem wp_stageEffectInvocation {request : EffectRequest V} :
    wp (stageEffectInvocation request) (Fallen initial) (fun _ after => InTurn initial after ∧
      CallStep initial (fun pending => ¬request.Closes before pending)
        (request.call? before.nextCall) before after) before := by
  unfold stageEffectInvocation
  rw [wp_bind, wp_get]
  refine wp.bind (keeps_forM inTurn fun _ _ _ => keeps_deactivateEffectActivation) ?_
  rintro _ superseded ⟨inTurn, steady⟩
  rw [← bind_assoc]
  refine wp.bind (keeps_activate inTurn) ?_
  rintro _ activated ⟨inTurn, later⟩
  have calls := later.calls.trans steady.calls
  simp only [Session.calls, Session.numbers, Prod.mk.injEq] at calls
  obtain ⟨pending, epoch, scope, sequence, requests⟩ := calls
  rw [wp_bind, wp_get]
  cases closed : request.intent with
  | none =>
    apply (wp_cancelPendingWhere inTurn).weaken
    rintro _ after ⟨inTurn, calm⟩
    refine ⟨inTurn, calm.numbers.trans ?_, fun _ _ _ => ?_⟩
    · simp [Session.numbers, EffectRequest.call?, closed, epoch, scope, sequence, requests]
    · rw [calm.pending, pending, scope]
      simp [EffectRequest.Closes, closed, and_assoc]
  | some intent =>
    dsimp only
    rw [wp_bind, wp_attempt_of_failed inTurn.fallen]
    intro next counted
    apply (wp_request inTurn rfl (lt_of_checkedSucc counted)).weaken
    rintro _ after ⟨inTurn, same, numbers⟩
    refine ⟨inTurn, numbers.trans ?_, fun _ _ _ => ?_⟩
    · obtain ⟨_, rfl⟩ := checkedSucc_eq_ok_iff.mp counted
      simp [Session.nextCall, EffectRequest.call?, closed, epoch, scope, sequence, requests]
    · rw [same, pending]
      simp [EffectRequest.Closes, closed]

theorem runs_updateTransientEffect {previous next : PendingTransientEffect S}
    (same : ∀ {pending : PendingTransientEffect S},
      before.machine.pendingTransientEffects[callId]? = some pending →
      next.owner = pending.owner ∧
        (initial.nextTransientEffectSequence ≤ callId.sequence →
          next.invocationId = pending.invocationId ∧
            next.executionScope = pending.executionScope)) :
    Runs initial (updateTransientEffect callId previous next) before := by
  have silent : ∀ call, lastWord { before.work.logs with
      updated := before.work.updatedTransientEffects ++ [(callId, previous)] } call = none →
      before.work.logs.lastWord call = none ∧ callId ≠ call := by
    intro call silent
    rw [lastWord_eq_none_iff] at silent ⊢
    obtain ⟨updated, completed, committed⟩ := silent
    rw [lastWritten_concat] at updated
    split at updated
    · cases updated
    · next apart => exact ⟨⟨updated, completed, committed⟩, apart⟩
  have logged : InTurn initial { before with work := { before.work with
      updatedTransientEffects := before.work.updatedTransientEffects ++
        [(callId, previous)] } } := by
    refine ⟨?_, inTurn.wellFormed⟩
    exact inTurn.undoable.changePending (fun call quiet => ⟨(silent call quiet).1, rfl⟩)
      inTurn.undoable.numbered fun _ found => ⟨_, found, rfl⟩
  unfold Runs updateTransientEffect modifyMachine modifyWork
  simp only [wp_bind, wp_modify, wp_get, wp_attempt]
  refine ⟨fun _ present => ?_, fun _ _ => logged.fallen⟩
  rw [reject_eq_ok_iff, not_not] at present
  obtain ⟨pending, found⟩ := mem_iff_exists.mp present
  refine ⟨?_, inTurn.wellFormed.lists, inTurn.wellFormed.touched⟩
  apply inTurn.undoable.changePending
  · intro call quiet
    obtain ⟨quiet, apart⟩ := silent call quiet
    exact ⟨quiet, by rw [getElem?_insert, if_neg apart]⟩
  · exact inTurn.undoable.numbered.replace found (same found)
  · intro call state _ present
    rcases getElem?_insert_eq_some_iff.mp present with ⟨rfl, rfl⟩ | ⟨_, present⟩
    · exact ⟨pending, found, (same found).1.symm⟩
    · exact ⟨state, present, rfl⟩

omit inTurn in
omit [RuntimeValue V] in
theorem latestRequests_sublist (requests : List (TransientEffectInvocation V)) :
    (latestRequests requests).Sublist requests := by
  induction requests with
  | nil => exact .slnil
  | cons request requests ih =>
    unfold latestRequests
    split
    · exact ih.cons request
    · exact ih.cons_cons request

/-- The request can become a pending call. -/
def Plan.Acceptable (plan : Plan V S) (request : TransientEffectInvocation V) : Prop :=
  (plan.effects.find? fun contract => contract.effectId == request.effectId).isSome ∧
    ∃ semantic, plan.semanticForInvocation request.effectId request.intent = .ok semantic

/-- Calls from before the turn that are pending now were pending before the step. -/
def OlderCalls (initial : MachineInstance V S) (before after : Session V S) : Prop :=
  ∀ ⦃call : TransientEffectCallId⦄ ⦃pending : PendingTransientEffect S⦄,
    call.sequence < initial.nextTransientEffectSequence →
    after.machine.pendingTransientEffects[call]? = some pending →
    before.machine.pendingTransientEffects[call]? = some pending

/-- A request of the turn becomes a pending call; the call it replaces is gone by then. -/
theorem wp_commitTransientEffect (member : request ∈ before.work.transientEffects) :
    wp (commitTransientEffect plan request)
      (fun after => Fallen initial after ∧ ¬plan.Acceptable request)
      (fun _ after => ((InTurn initial after ∧ after.reports = before.reports) ∧
        after.work.transientEffects = before.work.transientEffects) ∧
          plan.Acceptable request ∧ OlderCalls initial before after) before := by
  unfold commitTransientEffect
  rw [wp_bind]
  apply (wp_cancelPendingWhere inTurn).bind
  rintro _ after ⟨inTurn, calm⟩
  rw [wp_bind, wp_attempt]
  constructor
  swap
  · intro _ refused
    refine ⟨inTurn.fallen, fun acceptable => ?_⟩
    obtain ⟨contract, found⟩ := Option.isSome_iff_exists.mp acceptable.1
    rw [found] at refused
    cases refused
  intro contract isContract
  rw [wp_bind, wp_attempt]
  constructor
  swap
  · intro _ refused
    refine ⟨inTurn.fallen, fun acceptable => ?_⟩
    obtain ⟨semantic, accepted⟩ := acceptable.2
    rw [accepted] at refused
    cases refused
  intro semantic accepted
  have acceptable : plan.Acceptable request := by
    rw [okOr_eq_ok_iff] at isContract
    exact ⟨isContract ▸ rfl, semantic, mapError_eq_ok_iff.mp accepted⟩
  have staged : request ∈ after.work.transientEffects := calm.requests.symm ▸ member
  have late := inTurn.undoable.numbered.late request staged
  have missing : request.callId ∉ after.machine.pendingTransientEffects := by
    intro present
    obtain ⟨pending, found⟩ := mem_iff_exists.mp present
    obtain ⟨invocation, owner, scope⟩ := inTurn.undoable.numbered.known request staged found
    refine (calm.pending.mp found).2 ?_
    simp [invocation, owner, scope, calm.scope]
  have older : ∀ {call : TransientEffectCallId} {new pending : PendingTransientEffect S},
      call.sequence < initial.nextTransientEffectSequence →
      (after.machine.pendingTransientEffects.insert request.callId new)[call]? = some pending →
      after.machine.pendingTransientEffects[call]? = some pending := by
    intro call new pending old present
    rcases getElem?_insert_eq_some_iff.mp present with ⟨rfl, _⟩ | ⟨_, present⟩
    · exact absurd late (UInt64.not_le.mpr old)
    · exact present
  unfold modifyMachine modifyWork
  simp only [wp_bind, wp_modify, wp_get, wp_attempt, reject_eq_error_iff]
  refine ⟨fun _ _ => ?_, fun _ failed => absurd failed.1 missing⟩
  refine ⟨⟨⟨⟨?_, inTurn.wellFormed.lists, inTurn.wellFormed.touched⟩, calm.reports⟩,
    calm.requests⟩, acceptable, fun _ _ old present => (calm.pending.mp (older old present)).1⟩
  apply inTurn.undoable.changePending
  · intro call silent
    rw [lastWord_eq_none_iff] at silent ⊢
    obtain ⟨updated, completed, committed⟩ := silent
    rw [mem_append, not_or, mem_singleton] at committed
    refine ⟨⟨updated, completed, committed.1⟩, ?_⟩
    rw [getElem?_insert, if_neg (Ne.symm committed.2)]
  · exact inTurn.undoable.numbered.commit staged ⟨rfl, rfl, calm.scope.symm⟩
  · exact fun old present => ⟨_, older old present, rfl⟩

/-- The requests of the turn become pending calls exactly when all of them can. -/
theorem wp_commitTransientEffects :
    wp (commitTransientEffects plan)
      (fun after => Fallen initial after ∧
        ∃ request ∈ latestRequests before.work.transientEffects, ¬plan.Acceptable request)
      (fun _ after => (InTurn initial after ∧ after.reports = before.reports) ∧
        (∀ request ∈ latestRequests before.work.transientEffects, plan.Acceptable request) ∧
          OlderCalls initial before after) before := by
  have latest : InTurn initial { before with work := { before.work with
      transientEffects := latestRequests before.work.transientEffects } } := by
    refine ⟨?_, inTurn.wellFormed⟩
    apply inTurn.undoable.changePending (fun call silent => ⟨silent, rfl⟩)
    · exact inTurn.undoable.numbered.sublist (latestRequests_sublist _)
    · exact fun _ found => ⟨_, found, rfl⟩
  unfold commitTransientEffects modifyWork
  simp only [wp_bind, wp_modify]
  generalize latestRequests before.work.transientEffects = requests at latest ⊢
  have loop : wp (requests.forM (commitTransientEffect plan))
      (fun after => Fallen initial after ∧ ∃ request ∈ requests, ¬plan.Acceptable request)
      (fun _ session => ((InTurn initial session ∧ session.reports = before.reports) ∧
        session.work.transientEffects = requests) ∧
        (∀ request ∈ requests, plan.Acceptable request) ∧ OlderCalls initial before session)
      { before with work := { before.work with transientEffects := requests } } := by
    apply wp_forM_done fun done session =>
      ((InTurn initial session ∧ session.reports = before.reports) ∧
        session.work.transientEffects = requests) ∧
        (∀ request ∈ done, plan.Acceptable request) ∧ OlderCalls initial before session
    · exact ⟨⟨⟨latest, rfl⟩, rfl⟩, fun _ absent => absurd absent not_mem_nil,
        fun _ _ _ found => found⟩
    · rintro done request rest whole session ⟨⟨⟨inTurn, reports⟩, same⟩, accepted, older⟩
      have member : request ∈ requests := whole ▸ mem_append_right done mem_cons_self
      apply wp.mono (wp_commitTransientEffect inTurn (same.symm ▸ member))
      · exact fun _ failed => ⟨failed.1, request, member, failed.2⟩
      · rintro _ after ⟨⟨⟨inTurn, later⟩, kept⟩, acceptable, fewer⟩
        refine ⟨⟨⟨inTurn, later.trans reports⟩, kept.trans same⟩, ?_,
          fun _ _ old found => older old (fewer old found)⟩
        intro other done
        rcases mem_append.mp done with done | last
        · exact accepted other done
        · exact mem_singleton.mp last ▸ acceptable
  apply loop.weaken
  rintro _ after ⟨⟨both, _⟩, rest⟩
  exact ⟨both, rest⟩

theorem runs_commitTransientEffects : Runs initial (commitTransientEffects plan) before :=
  wp.mono (wp_commitTransientEffects inTurn) (fun _ failed => failed.1)
    fun _ _ kept => kept.1.1

end Steps

end BoonCircuit.Executor
