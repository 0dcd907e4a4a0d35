import BoonCircuit.Executor.FailedTurn

/-!
# Delivery of effect results

A result for a pending call is checked, applied to its target and propagated.  The
table of pending calls is updated only afterwards, and the turn is taken back when
anything fails.
-/

namespace BoonCircuit.Executor

open Lib Checks Action Mutation BTreeMap
open TransientEffectCallId (report)

/-- The text of a failure inside another failure. -/
def Error.text : Error → String
  | .invalidPlan detail => "invalid MachinePlan: " ++ detail
  | .invalidEvent detail => "invalid source event: " ++ detail
  | .evaluation detail => "evaluation failed: " ++ detail
  | .workBudgetExceeded limit attempted => "executor work budget exceeded: attempted " ++
      toString attempted ++ " units with a " ++ toString limit ++ "-unit transaction limit"

variable {V S : Type} [RuntimeValue V]

/-- Runs the steps of a turn.  A turn that fails is rolled back. -/
def guardedTurn (plan : Plan V S) (doing : String) (limit : Option UInt64) (body : Step V S Unit)
    (machine : MachineInstance V S) : Except Error Unit × MachineInstance V S :=
  match exec body (machine.beginTurn limit) with
  | (.ok (), session) => (.ok (), session.machine)
  | (.error error, session) =>
    match exec (rollbackTurn plan) session with
    | (.ok (), restored) => (.error error, { restored.machine with
        lastSequence := machine.lastSequence
        turnSequence := machine.turnSequence })
    | (.error rollback, stuck) => (.error (.evaluation (doing ++ " failed with `" ++ error.text ++
        "` and rollback failed with `" ++ rollback.text ++ "`")), stuck.machine)

/-- What the delivery of a result reads from a plan besides its contracts. -/
structure EffectPlan (V S : Type) [RuntimeValue V] extends Plan V S where
  /-- The effect of an invocation. -/
  invocationEffect : EffectInvocationId → Option EffectId
  /-- Effects without durable replay and without a barrier. -/
  processLocal : EffectId → Bool
  /-- Whether an outcome fits the result type of its effect. -/
  validateOutcome : EffectId → V → Except Error Unit
  /-- Deltas of memory that the plan keeps between launches. -/
  durable : AuthorityDelta V → Bool
  /-- The stable identity of what a delta is about, and the stored form of its values. -/
  storedDelta : AuthorityDelta V → Except Error Unit
  /-- What a host sees of a value, which may mention live collections. -/
  resolveBoundaryValue :
    BTreeMap (CollectionAuthorityAddress V) (CollectionAuthorityState V) → V → Except Error Unit

/-- A result as a host delivers it. -/
inductive EffectResult (V : Type) where
  /-- The one result of a call. -/
  | single (outcome : V)
  /-- One result of a stream. -/
  | stream (sequence : UInt64) (outcome : V)

/-- A result that passed its checks. -/
structure AcceptedResult (V S : Type) where
  pending : PendingTransientEffect S
  stored : V
  terminal : Bool
  /-- The stream check after this result. -/
  semantic : S
  consumesCredit : Bool
  maxInFlight : UInt32

namespace MachineInstance

def nextInternalTurnSequence (machine : MachineInstance V S) : Except Error UInt64 :=
  checkedSucc machine.turnSequence (.evaluation "authority turn sequence overflow")

def validateCurrentEffectOwner (machine : MachineInstance V S) (owner : OwnerInstance)
    (target : Option RowId) : Except Error Unit := do
  owner.ancestry.forM fun row => reject ((machine.row? row).isNone)
    (.invalidEvent (report "owner row is stale"))
  forSome target fun row => reject ((machine.row? row).isNone)
    (.invalidEvent (report "result row is stale"))

/-- The pending call a result is for. -/
def pendingCall (machine : MachineInstance V S) (callId : TransientEffectCallId) :
    Except Error (PendingTransientEffect S) := do
  reject (callId.launchEpoch ≠ machine.launchEpoch)
    (.invalidEvent (report "belongs to a different session launch"))
  let pending ← okOr machine.pendingTransientEffects[callId]?
    (.invalidEvent (report "is unknown, cancelled, or already completed"))
  machine.validateCurrentEffectOwner pending.owner pending.target
  pure pending

end MachineInstance

namespace EffectPlan

/-- The contract of the effect that a call still belongs to. -/
def contractOf (plan : EffectPlan V S) (pending : PendingTransientEffect S) :
    Except Error EffectContract := do
  let effectId ← okOr (plan.invocationEffect pending.invocationId) (Error.invalidPlan
    ("effect invocation " ++ toString pending.invocationId ++ " is absent from the active plan"))
  reject (effectId ≠ pending.effectId) (.invalidPlan (report
    ("no longer matches invocation " ++ toString pending.invocationId)))
  okOr (plan.effects.find? fun contract => contract.effectId == effectId)
    (.invalidPlan (report "has no effect contract"))

/-- The checks of the one result of a call. -/
def checkSingle (plan : EffectPlan V S) (machine : MachineInstance V S)
    (callId : TransientEffectCallId) (outcome : V) : Except Error (AcceptedResult V S) := do
  let pending ← machine.pendingCall callId
  let contract ← plan.contractOf pending
  reject (contract.delivery ≠ .single) (.invalidEvent (report
    "is a stream; deliver it with an explicit result sequence"))
  reject (plan.processLocal contract.effectId = false) (.invalidPlan (report
    "is not process-local and barrier-free"))
  plan.validateOutcome contract.effectId outcome
  let stored ← plan.storedOutcome contract.effectId outcome
  pure ⟨pending, stored, true, pending.semantic, false, 0⟩

/-- The checks of one result of a stream. -/
def checkStream (plan : EffectPlan V S) (machine : MachineInstance V S)
    (callId : TransientEffectCallId) (sequence : UInt64) (outcome : V) :
    Except Error (AcceptedResult V S) := do
  let pending ← machine.pendingCall callId
  match pending.delivery with
  | .single => throw (.invalidEvent (report "is single-delivery"))
  | .stream _ maxInFlight creditResultTags terminalResultTags =>
    reject (sequence ≠ pending.nextResultSequence) (.invalidEvent (report
      ("expected result sequence " ++ toString pending.nextResultSequence ++ ", got " ++
        toString sequence)))
    let contract ← plan.contractOf pending
    reject (contract.delivery ≠ pending.delivery) (.invalidPlan (report
      "delivery contract changed while active"))
    plan.validateOutcome contract.effectId outcome
    let tag ← okOr (plan.outcomeTag outcome) (.invalidPlan (report
      "stream outcome has no variant tag"))
    let terminal := terminalResultTags.contains tag
    let consumesCredit := creditResultTags.contains tag
    reject (consumesCredit = true ∧ pending.availableCredits = 0)
      (.invalidEvent (report "has no delivery credit"))
    let semantic ← (plan.semanticAccept pending.semantic sequence outcome terminal).mapError
      fun detail => Error.invalidEvent (report ("violated its stream contract: " ++ detail))
    let stored ← plan.storedOutcome contract.effectId outcome
    pure ⟨pending, stored, terminal, semantic, consumesCredit, maxInFlight⟩

def checkResult (plan : EffectPlan V S) (machine : MachineInstance V S)
    (callId : TransientEffectCallId) : EffectResult V → Except Error (AcceptedResult V S)
  | .single outcome => plan.checkSingle machine callId outcome
  | .stream sequence outcome => plan.checkStream machine callId sequence outcome

end EffectPlan

/-- What the evaluator does about an event, and whether the changes can be stored and reported. -/
structure Reaction (V S : Type) [RuntimeValue V] where
  mutations : List (Mutation V S)
  durableChanges : Except Error Unit
  report : Except Error Unit

/-- What the evaluator does about an outcome. -/
structure OutcomeReaction (V S : Type) [RuntimeValue V] where
  /-- The mutations that apply the outcome to its target. -/
  applied : List (Mutation V S)
  /-- The mutations of everything that follows from it. -/
  propagated : List (Mutation V S)
  evaluated : ∀ mutation ∈ applied ++ propagated, mutation.Evaluated
  /-- The values of cells and rows that the turn shows to its host. -/
  shown : List V

def OutcomeReaction.mutations (reaction : OutcomeReaction V S) : List (Mutation V S) :=
  reaction.applied ++ reaction.propagated

/-- The values that a delta reports. -/
def AuthorityDelta.values : AuthorityDelta V → List V
  | .setRoot _ value | .setRowField _ _ _ _ value => [value]
  | .replaceList _ authority => authority.rows.flatMap fun row => row.fields.values
  | .insertRow row .. => row.fields.values
  | .mapUpsert _ _ key value => [key, value]
  | .mapRemove _ _ member | .setAdd _ _ member | .setRemove _ _ member => [member]
  | .removeRow .. | .retireRowOverlay _ | .createMap _ | .deleteMap _ | .createSet _
  | .deleteSet _ => []

namespace MachineInstance

/-- A durable change of a row needs the list of the row. -/
def durableRow (machine : MachineInstance V S) (list : ListId) (doing : String) :
    Except Error Unit :=
  reject (list ∉ machine.lists)
    (.invalidPlan ("durable row" ++ doing ++ " references missing list " ++ toString list))

def collectionMap (machine : MachineInstance V S) (address : CollectionAuthorityAddress V) :
    Except Error (MapAuthority V) :=
  match machine.collectionAuthorities[address]? with
  | some (.map authority) => .ok authority
  | some (.set _) => .error (.invalidPlan
      ("collection authority " ++ toString address.authority ++ " is SET, expected MAP"))
  | none => .error (.invalidPlan
      ("collection authority " ++ toString address.authority ++ " has no live MAP state"))

end MachineInstance

namespace EffectPlan

/-- The stored change that a delta of the turn stands for, in the machine the turn leaves. -/
def durableChange (plan : EffectPlan V S) (machine : MachineInstance V S)
    (delta : AuthorityDelta V) : Except Error Unit := do
  plan.storedDelta delta
  match delta with
  | .setRowField row .. => machine.durableRow row.list " field"
  | .insertRow row .. => machine.durableRow row.id.list " insertion"
  | .removeRow row _ => machine.durableRow row.list " removal"
  | .retireRowOverlay row => machine.durableRow row.list "-overlay retirement"
  | .replaceList list authority => reject (authority.touched = false) (.invalidPlan
      ("replacement authority for list " ++ toString list ++ " is not structurally touched"))
  | .mapUpsert address _ key _ =>
    let authority ← machine.collectionMap address
    reject (key ∉ authority.keyGenerations) (.invalidPlan ("durable MAP authority " ++
      toString address.authority ++ " has no generation for its upserted key"))
  | .mapRemove address .. =>
    let _ ← machine.collectionMap address
  | _ => pure ()

def durableChanges (plan : EffectPlan V S) (session : Session V S) : Except Error Unit :=
  (session.work.authorityDeltas.filter plan.durable).forM (plan.durableChange session.machine)

def takeReportDeltas (plan : EffectPlan V S) (shown : List V) (session : Session V S) :
    Except Error Unit :=
  (shown ++ session.work.authorityDeltas.flatMap AuthorityDelta.values).forM
    (plan.resolveBoundaryValue session.machine.collectionAuthorities)

end EffectPlan

/-- The credits of a stream after a result: one is spent and one is granted. -/
def regrantedCredits (available maxInFlight : UInt32) : UInt32 :=
  let spent := if available = 0 then 0 else available - 1
  min (if spent = 0xFFFFFFFF then maxInFlight else spent + 1) maxInFlight

/-- The state of a stream after one of its results. -/
def AcceptedResult.advanced (accepted : AcceptedResult V S) (nextResultSequence : UInt64) :
    PendingTransientEffect S :=
  { accepted.pending with
    semantic := accepted.semantic
    nextResultSequence := nextResultSequence
    availableCredits := if accepted.consumesCredit then
        regrantedCredits accepted.pending.availableCredits accepted.maxInFlight
      else accepted.pending.availableCredits }

/-- Moves a stream on to its next result. -/
def advanceCall (callId : TransientEffectCallId) (accepted : AcceptedResult V S) :
    Step V S Unit := do
  modifyWork fun work => { work with
    updatedTransientEffects := work.updatedTransientEffects ++ [(callId, accepted.pending)] }
  let next ← attempt (checkedSucc accepted.pending.nextResultSequence
    (.evaluation (report "exhausted result sequences")))
  let session ← get
  attempt (reject (callId ∉ session.machine.pendingTransientEffects)
    (.invalidEvent (report "was cancelled concurrently")))
  modifyMachine fun machine => { machine with
    pendingTransientEffects :=
      machine.pendingTransientEffects.insert callId (accepted.advanced next) }

/-- How a call that is gone too early is reported. -/
def EffectResult.ending : EffectResult V → String
  | .single _ => "was completed"
  | .stream .. => "terminated"

def settleCall (callId : TransientEffectCallId) (result : EffectResult V)
    (accepted : AcceptedResult V S) : Step V S Unit :=
  if accepted.terminal then completeTransientEffect callId result.ending
  else advanceCall callId accepted

def deliveryTurn (plan : EffectPlan V S) (callId : TransientEffectCallId)
    (result : EffectResult V) (accepted : AcceptedResult V S)
    (reaction : OutcomeReaction V S) (sequence : UInt64) : Step V S Unit := do
  reaction.mutations.forM (Mutation.apply plan.toPlan)
  let session ← get
  attempt (plan.durableChanges session)
  settleCall callId result accepted
  commitTransientEffects plan.toPlan
  modifyMachine fun machine => { machine with turnSequence := sequence }
  let session ← get
  attempt (plan.takeReportDeltas reaction.shown session)

/-- Delivers a result.  The reaction of the program is given with it. -/
def deliverEffectResult (plan : EffectPlan V S) (limit : Option UInt64)
    (callId : TransientEffectCallId) (result : EffectResult V)
    (reaction : OutcomeReaction V S) (machine : MachineInstance V S) :
    Except Error Unit × MachineInstance V S :=
  match plan.checkResult machine callId result with
  | .error error => (.error error, machine)
  | .ok accepted =>
    match machine.nextInternalTurnSequence with
    | .error error => (.error error, machine)
    | .ok sequence =>
      guardedTurn plan.toPlan "effect outcome" limit
        (deliveryTurn plan callId result accepted reaction sequence) machine

section Delivery

variable {plan : EffectPlan V S} {machine : MachineInstance V S} {session : Session V S}
  {callId : TransientEffectCallId} {result : EffectResult V} {accepted : AcceptedResult V S}
  {reaction : OutcomeReaction V S} {limit : Option UInt64} {applied : Session V S}

theorem exec_forM_apply {plan : Plan V S} {mutations : List (Mutation V S)} :
    exec (mutations.forM (Mutation.apply plan)) session = runTurn plan mutations session := by
  induction mutations generalizing session with
  | nil => rfl
  | cons mutation mutations ih =>
    change exec (mutation.apply plan >>= fun _ => mutations.forM (apply plan)) session = _
    rw [exec_bind]
    unfold runTurn
    rw [runAll]
    rcases exec (mutation.apply plan) session with ⟨_ | _, _⟩
    · rfl
    · exact ih

theorem MachineInstance.pendingCall_eq_ok {pending : PendingTransientEffect S}
    (checked : machine.pendingCall callId = .ok pending) :
    callId.launchEpoch = machine.launchEpoch ∧
      machine.pendingTransientEffects[callId]? = some pending ∧
      ∀ row ∈ pending.owner.ancestry, (machine.row? row).isSome := by
  obtain ⟨_, launched, checked⟩ := bind_eq_ok_iff.mp checked
  obtain ⟨_, isFound, checked⟩ := bind_eq_ok_iff.mp checked
  obtain ⟨_, owned, checked⟩ := bind_eq_ok_iff.mp checked
  cases pure_eq_ok_iff.mp checked
  obtain ⟨_, rows, _⟩ := bind_eq_ok_iff.mp owned
  refine ⟨not_not.mp (reject_eq_ok_iff.mp launched), okOr_eq_ok_iff.mp isFound, ?_⟩
  intro row member
  have present := reject_eq_ok_iff.mp (forM_eq_ok_iff.mp rows row member)
  rwa [Option.isNone_iff_eq_none, ← ne_eq, Option.ne_none_iff_isSome] at present

theorem EffectPlan.durableChanges_eq_ok_iff : plan.durableChanges session = .ok () ↔
    ∀ delta ∈ session.work.authorityDeltas, plan.durable delta = true →
      plan.durableChange session.machine delta = .ok () := by
  refine forM_eq_ok_iff.trans ?_
  simp only [List.mem_filter, and_imp]

theorem EffectPlan.takeReportDeltas_congr {shown : List V} {after : Session V S}
    (same : after.reports = session.reports) :
    plan.takeReportDeltas shown after = plan.takeReportDeltas shown session := by
  simp only [Session.reports, MachineInstance.authority, Prod.mk.injEq] at same
  obtain ⟨⟨_, _, _, _, _, collections, _⟩, deltas⟩ := same
  unfold takeReportDeltas
  rw [collections, deltas]

theorem EffectPlan.pendingCall_of_checkResult
    (checked : plan.checkResult machine callId result = .ok accepted) :
    machine.pendingCall callId = .ok accepted.pending := by
  cases result with
  | single =>
    simp only [checkResult, checkSingle, bind_eq_ok_iff, pure_eq_ok_iff] at checked
    rcases checked with ⟨pending, isPending, _, _, _, _, _, _, _, _, _, _, rfl⟩
    exact isPending
  | stream =>
    obtain ⟨pending, isPending, checked⟩ := bind_eq_ok_iff.mp checked
    split at checked
    · cases checked
    · simp only [bind_eq_ok_iff, pure_eq_ok_iff] at checked
      rcases checked with ⟨_, _, _, _, _, _, _, _, _, _, _, _, _, _, _, _, rfl⟩
      exact isPending

/-- The call can be settled: it is still pending, and a stream that goes on has a number left. -/
structure Settleable (callId : TransientEffectCallId) (accepted : AcceptedResult V S)
    (session : Session V S) : Prop where
  present : callId ∈ session.machine.pendingTransientEffects
  room : accepted.terminal = false → accepted.pending.nextResultSequence ≠ 0xFFFFFFFFFFFFFFFF

/-- A settled call is over, or it goes on for the rows it had. -/
structure SettledCall (callId : TransientEffectCallId) (accepted : AcceptedResult V S)
    (before after : Session V S) : Prop where
  reports : after.reports = before.reports
  requests : after.work.transientEffects = before.work.transientEffects
  ended : ∀ {pending : PendingTransientEffect S},
    after.machine.pendingTransientEffects[callId]? = some pending → accepted.terminal = false

theorem wp_completeCall {concurrent : String} (inTurn : InTurn machine session)
    (terminal : accepted.terminal = true) :
    wp (completeTransientEffect callId concurrent)
      (fun _ => ¬Settleable callId accepted session)
      (fun _ after => InTurn machine after ∧ Settleable callId accepted session ∧
        SettledCall callId accepted session after) session := by
  unfold completeTransientEffect
  simp only [wp_bind, wp_get, wp_attempt, reject_eq_ok_iff, reject_eq_error_iff, not_not]
  constructor
  · intro _ present
    obtain ⟨completed, calm⟩ := inTurn_completePending callId inTurn
    refine ⟨completed, ⟨present, fun running => ?_⟩, calm.reports, calm.requests, ?_⟩
    · rw [terminal] at running
      cases running
    · exact fun found => absurd rfl (calm.pending.mp found).2
  · exact fun _ missing settleable => missing.1 settleable.present

theorem wp_advanceCall (inTurn : InTurn machine session)
    (older : callId.sequence < machine.nextTransientEffectSequence)
    (known : machine.pendingTransientEffects[callId]? = some accepted.pending)
    (running : accepted.terminal = false) :
    wp (advanceCall callId accepted) (fun _ => ¬Settleable callId accepted session)
      (fun _ after => InTurn machine after ∧ Settleable callId accepted session ∧
        SettledCall callId accepted session after) session := by
  cases counted : checkedSucc accepted.pending.nextResultSequence
      (.evaluation (report "exhausted result sequences")) with
  | error exhausted =>
    unfold advanceCall modifyWork
    rw [counted]
    simp only [wp_bind, wp_modify, wp_attempt]
    constructor
    · rintro _ ⟨⟩
    · intro _ _ settleable
      rw [checkedSucc_eq_ok_iff.mpr ⟨settleable.room running, rfl⟩] at counted
      cases counted
  | ok next =>
    have same : advanceCall callId accepted =
        updateTransientEffect callId accepted.pending (accepted.advanced next) := by
      unfold advanceCall
      rw [counted]
      rfl
    rw [same]
    have runs : Runs machine
        (updateTransientEffect callId accepted.pending (accepted.advanced next)) session := by
      apply runs_updateTransientEffect inTurn
      intro pending found
      obtain ⟨_, isEarlier, owner⟩ := (inTurn.undoable.attached older found).known
      cases known.symm.trans isEarlier
      exact ⟨owner, fun late => absurd older (UInt64.not_lt.mpr late)⟩
    have settles : wp (updateTransientEffect callId accepted.pending (accepted.advanced next))
        (fun _ => ¬Settleable callId accepted session)
        (fun _ after => Settleable callId accepted session ∧
          SettledCall callId accepted session after) session := by
      unfold updateTransientEffect modifyMachine modifyWork
      simp only [wp_bind, wp_get, wp_attempt, wp_modify,
        reject_eq_ok_iff, reject_eq_error_iff, not_not]
      constructor
      · exact fun _ present => ⟨⟨present, fun _ => (checkedSucc_eq_ok_iff.mp counted).1⟩,
          rfl, rfl, fun _ => running⟩
      · exact fun _ missing settleable => missing.1 settleable.present
    have both := settles.and (wp.mono runs (fun _ _ => trivial) fun _ _ inTurn => inTurn)
    exact wp.mono both (fun _ failed => failed) fun _ _ both => ⟨both.2, both.1⟩

theorem wp_settleCall (inTurn : InTurn machine session)
    (older : callId.sequence < machine.nextTransientEffectSequence)
    (known : machine.pendingTransientEffects[callId]? = some accepted.pending) :
    wp (settleCall callId result accepted) (fun _ => ¬Settleable callId accepted session)
      (fun _ after => InTurn machine after ∧ Settleable callId accepted session ∧
        SettledCall callId accepted session after) session := by
  unfold settleCall
  split
  · next terminal => exact wp_completeCall inTurn terminal
  · next running => exact wp_advanceCall inTurn older known (Bool.not_eq_true _ ▸ running)

/-- The condition under which the result is received, once it is applied to its target. -/
structure Receivable (plan : EffectPlan V S) (limit : Option UInt64) (machine : MachineInstance V S)
    (accepted : AcceptedResult V S) (reaction : OutcomeReaction V S) : Prop where
  /-- What follows from the applied outcome succeeds. -/
  propagates : (runTurn plan.toPlan reaction.propagated
    (runTurn plan.toPlan reaction.applied (machine.beginTurn limit)).2).1 = .ok ()
  /-- The program neither removes a row of the call's owner nor closes its gate. -/
  spared : ¬Reaches plan.toPlan (fun session => Ends session accepted.pending) reaction.mutations
    (machine.beginTurn limit)
  /-- A stream that goes on has a number left. -/
  room : accepted.terminal = false → accepted.pending.nextResultSequence ≠ 0xFFFFFFFFFFFFFFFF
  /-- The calls that the program asks for can be made. -/
  requests : ∀ request ∈ latestRequests (askedCalls
      ⟨machine.launchEpoch, machine.nextTransientEffectSequence⟩ reaction.mutations),
    plan.toPlan.Acceptable request
  /-- Every durable delta can be stored. -/
  stored : ∀ delta ∈ (runTurn plan.toPlan reaction.mutations
      (machine.beginTurn limit)).2.work.authorityDeltas, plan.durable delta = true →
    plan.durableChange (runTurn plan.toPlan reaction.mutations (machine.beginTurn limit)).2.machine
      delta = .ok ()
  /-- Every reported value can be resolved. -/
  reported : plan.takeReportDeltas reaction.shown
    (runTurn plan.toPlan reaction.mutations (machine.beginTurn limit)).2 = .ok ()
  turn : machine.turnSequence ≠ 0xFFFFFFFFFFFFFFFF

/-- The call is gone, or it is a stream that goes on for rows that exist. -/
def Received (callId : TransientEffectCallId) (accepted : AcceptedResult V S)
    (machine : MachineInstance V S) : Prop :=
  ∀ pending, machine.pendingTransientEffects[callId]? = some pending →
    accepted.terminal = false ∧ ∀ row ∈ pending.owner.ancestry, (machine.row? row).isSome

/-- The rest of a delivery after a reaction that succeeds. -/
theorem wp_deliveryTurn (sequence : UInt64) (settled : machine.Settled)
    (checked : plan.checkResult machine callId result = .ok accepted)
    (reacts : runTurn plan.toPlan reaction.mutations (machine.beginTurn limit) = (.ok (), session))
    (turn : machine.turnSequence ≠ 0xFFFFFFFFFFFFFFFF)
    (propagates : (runTurn plan.toPlan reaction.propagated
      (runTurn plan.toPlan reaction.applied (machine.beginTurn limit)).2).1 = .ok ()) :
    wp (deliveryTurn plan callId result accepted reaction sequence)
      (fun _ => ¬Receivable plan limit machine accepted reaction)
      (fun _ after => Receivable plan limit machine accepted reaction ∧
        Received callId accepted after.machine) (machine.beginTurn limit) := by
  obtain ⟨launch, known, alive⟩ :=
    MachineInstance.pendingCall_eq_ok (EffectPlan.pendingCall_of_checkResult checked)
  have older := settled.numbered.pending (mem_iff_exists.mpr ⟨_, known⟩) launch
  have owned : machine.Owned callId := by
    refine ⟨older, fun pending found => ?_⟩
    cases known.symm.trans found
    exact alive
  obtain ⟨requests, calls⟩ := calls_runTurn settled.inTurn reaction.evaluated reacts
  have inTurn : InTurn machine session := settled.inTurn_runTurn reacts
  -- a call of before the turn is pending after the reaction exactly when nothing ended it
  have present : callId ∈ session.machine.pendingTransientEffects ↔ ¬Reaches plan.toPlan
      (fun session => Ends session accepted.pending) reaction.mutations
        (machine.beginTurn limit) := by
    rw [mem_iff_exists]
    constructor
    · rintro ⟨pending, found⟩
      obtain ⟨earlier, spared⟩ := (calls owned).mp found
      cases known.symm.trans earlier
      exact spared
    · exact fun spared => ⟨_, (calls owned).mpr ⟨known, spared⟩⟩
  unfold deliveryTurn
  rw [wp_bind]
  apply wp_of_exec (exec_forM_apply.trans reacts)
  simp only [wp_bind, wp_get, wp_attempt]
  refine ⟨fun _ stored => ?_, fun _ refused receivable => ?_⟩
  swap
  · have stored := receivable.stored
    rw [reacts] at stored
    rw [EffectPlan.durableChanges_eq_ok_iff.mpr stored] at refused
    cases refused
  apply wp.mono (wp_settleCall inTurn older known)
  · exact fun _ failed receivable =>
      failed ⟨present.mpr receivable.spared, receivable.room⟩
  rintro _ completed ⟨inTurn, settleable, settles⟩
  have asked : completed.work.transientEffects = askedCalls
      ⟨machine.launchEpoch, machine.nextTransientEffectSequence⟩ reaction.mutations :=
    settles.requests.trans requests
  rw [wp_bind]
  apply wp.mono (wp_commitTransientEffects inTurn)
  · rintro _ ⟨_, request, member, refused⟩ receivable
    exact refused (receivable.requests request (asked ▸ member))
  rintro _ after ⟨⟨inTurn, reports⟩, acceptable, earlier⟩
  unfold modifyMachine
  simp only [wp_bind, wp_modify, wp_get, wp_attempt]
  have reported : plan.takeReportDeltas reaction.shown
      { after with machine := { after.machine with turnSequence := sequence } } =
        plan.takeReportDeltas reaction.shown session :=
    EffectPlan.takeReportDeltas_congr (reports.trans settles.reports)
  rw [reported]
  refine ⟨fun _ shown => ⟨?_, ?_⟩, fun _ refused receivable => ?_⟩
  · refine ⟨propagates, present.mp settleable.present, settleable.room, asked ▸ acceptable, ?_, ?_,
      turn⟩
    · rw [reacts]
      exact EffectPlan.durableChanges_eq_ok_iff.mp stored
    · rw [reacts]
      exact shown
  · intro pending found
    refine ⟨settles.ended (earlier older found), fun row member => ?_⟩
    have attached := inTurn.undoable.attached older found
    obtain ⟨_, isBefore, owner⟩ := attached.known
    cases known.symm.trans isBefore
    exact attached.rows row member (alive row (owner ▸ member))
  · have shown := receivable.reported
    rw [reacts, refused] at shown
    cases shown

/-- A result that passed its checks and is applied to its target is received exactly when the
propagation succeeds, spares the call, and leaves changes that can be stored and reported. -/
theorem deliverEffectResult_receives_iff (settled : machine.Settled)
    (checked : plan.checkResult machine callId result = .ok accepted)
    (applies : runTurn plan.toPlan reaction.applied (machine.beginTurn limit) =
      (.ok (), applied)) :
    (∃ final, deliverEffectResult plan limit callId result reaction machine = (.ok (), final) ∧
      Received callId accepted final) ↔ Receivable plan limit machine accepted reaction := by
  unfold deliverEffectResult
  rw [checked]
  dsimp only
  cases counted : machine.nextInternalTurnSequence with
  | error =>
    refine iff_of_false (fun received => ?_) fun receivable => ?_
    · obtain ⟨_, failed, _⟩ := received
      cases failed
    · unfold MachineInstance.nextInternalTurnSequence at counted
      rw [checkedSucc_eq_ok_iff.mpr ⟨receivable.turn, rfl⟩] at counted
      cases counted
  | ok sequence =>
    have turn : wp (deliveryTurn plan callId result accepted reaction sequence)
        (fun _ => ¬Receivable plan limit machine accepted reaction)
        (fun _ after => Receivable plan limit machine accepted reaction ∧
          Received callId accepted after.machine) (machine.beginTurn limit) := by
      have whole : runTurn plan.toPlan reaction.mutations (machine.beginTurn limit) = _ :=
        runTurn_append applies
      rcases propagated : runTurn plan.toPlan reaction.propagated applied with ⟨_ | _, session⟩
      · unfold deliveryTurn
        rw [wp_bind]
        unfold wp
        rw [exec_forM_apply, whole, propagated]
        intro receivable
        have propagates := receivable.propagates
        rw [applies, propagated] at propagates
        cases propagates
      · refine wp_deliveryTurn sequence settled checked (whole.trans propagated)
          (checkedSucc_eq_ok_iff.mp counted).1 ?_
        rw [applies, propagated]
    unfold wp at turn
    unfold guardedTurn
    dsimp only
    rcases ended : exec (deliveryTurn plan callId result accepted reaction sequence)
        (machine.beginTurn limit) with ⟨error | _, _⟩
    · rw [ended] at turn
      refine iff_of_false (fun received => ?_) turn
      obtain ⟨final, delivered, _⟩ := received
      dsimp only at delivered
      split at delivered <;> cases delivered
    · rw [ended] at turn
      exact iff_of_true ⟨_, rfl, turn.2⟩ turn.1

end Delivery

section Refusal

/-- The plan of a list whose rows call an effect, and that keeps all its memory. -/
def rowPlan : EffectPlan Nat Unit where
  toPlan := listPlan
  invocationEffect := fun _ => some 1
  processLocal := fun _ => true
  validateOutcome := fun _ _ => .ok ()
  durable := fun _ => true
  storedDelta := fun _ => .ok ()
  resolveBoundaryValue := fun _ _ => .ok ()

/-- The program removes the row in reaction to the result, and the result is refused. -/
theorem deliverEffectResult_refuses_removal :
    (∃ accepted, rowPlan.checkResult rowCall ⟨1, 1⟩ (.single 9) = .ok accepted) ∧
    (runTurn rowPlan.toPlan [.removeRow ⟨1, 1, 1⟩ fun _ => 0] (rowCall.beginTurn none)).1 = .ok () ∧
    (deliverEffectResult rowPlan none ⟨1, 1⟩ (.single 9)
        ⟨[], [.removeRow ⟨1, 1, 1⟩ fun _ => 0], by simp [Evaluated], []⟩ rowCall).1 =
      .error (.invalidEvent
        "transient effect call TransientEffectCallId(..) was completed concurrently") :=
  ⟨⟨_, rfl⟩, rfl, rfl⟩

/-- The call of a row takes its result, which is written to the row before another row follows. -/
theorem deliverEffectResult_receives_row :
    ∃ accepted final,
      deliverEffectResult rowPlan none ⟨1, 1⟩ (.single 9)
          ⟨[.setEffectResult ⟨1, some ⟨1, 1, 1⟩⟩ 9, .writeRowField ⟨1, 1, 1⟩ 0 9 true],
            [.appendRow 1 ∅ [] none [] 0], by simp [Evaluated], [9]⟩ rowCall = (.ok (), final) ∧
        Received ⟨1, 1⟩ accepted final := by
  refine ⟨_, (deliverEffectResult_receives_iff settled_rowCall rfl rfl).mpr ?_⟩
  refine ⟨rfl, ?_, nofun, nofun, ?_, rfl, by decide⟩
  · rintro ⟨done, mutation, rest, _, whole, _, ends⟩
    have member : mutation ∈ done ++ mutation :: rest :=
      List.mem_append_right done List.mem_cons_self
    rw [← whole] at member
    simp only [OutcomeReaction.mutations, List.cons_append, List.nil_append, List.mem_cons,
      List.not_mem_nil, or_false] at member
    rcases member with rfl | rfl | rfl <;> exact ends
  · exact EffectPlan.durableChanges_eq_ok_iff.mp rfl

end Refusal

end BoonCircuit.Executor
