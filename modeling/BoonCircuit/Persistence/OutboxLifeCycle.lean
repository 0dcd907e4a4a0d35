import BoonCircuit.Lib.Word
import BoonCircuit.Persistence.ChangeInvariants
import BoonCircuit.Persistence.ChecksumBinding

/-!
# The life of an outbox item

A trace keeps, for every item identity, the entries that the outbox has had for it, each
with the applied change that made it.  Replayed changes leave no mark in it.  Along every
run of checkpoints the entries follow one automaton: an item is enqueued, dispatched, sent
to reconciliation and dispatched again, and it leaves when its attempt is completed.
-/

namespace BoonCircuit.Persistence

open Data Lib Checks Digest BTreeMap Relation

/-- The next state of an item that stays in the outbox. -/
inductive DurableOutboxState.Next : DurableOutboxState → DurableOutboxState → Prop
  | first : Next .pending (.dispatching 1)
  | reconcile (attempt : UInt32) : Next (.dispatching attempt) (.reconciliationRequired attempt)
  | again (attempt : UInt32) :
      Next (.reconciliationRequired attempt)
        (.dispatching (if attempt = 0xFFFFFFFF then attempt else attempt + 1))

/-- One transition of an item that stays in the outbox. -/
structure OutboxTransition (item next : DurableOutboxItem) : Prop where
  state : item.state.Next next.state
  revision : next.revision.toNat = item.revision.toNat + 1
  turn : item.updatedTurnSequence ≤ next.updatedTurnSequence
  kept : next = { item with
    state := next.state
    revision := next.revision
    updatedTurnSequence := next.updatedTurnSequence }

/-- What a change can do to the entry of one identity. -/
inductive EntryChange (sha256 : List UInt8 → Digest) : DurableOutboxChange → OutboxItemId →
    Option DurableOutboxItem → Option DurableOutboxItem → Prop
  | enqueued {item : DurableOutboxItem} (pending : item.state = .pending)
      (fresh : item.revision = 0) (valid : validateOutboxItem sha256 item = .ok ()) :
      EntryChange sha256 (.enqueue item) item.itemId none (some item)
  | moved {change : DurableOutboxChange} {id : OutboxItemId} {item next : DurableOutboxItem}
      (transition : OutboxTransition item next) (turn : next.updatedTurnSequence = change.turn) :
      EntryChange sha256 change id (some item) (some next)
  | completed {id : OutboxItemId} {item : DurableOutboxItem} {expected revision turn : UInt64}
      {outcome : Value} (active : item.state ≠ .pending) :
      EntryChange sha256 (.complete id expected revision item.state.attempt outcome turn) id
        (some item) none

/-- What the outbox has for an identity since a change was applied, or from the start. -/
structure OutboxEntry where
  item : Option DurableOutboxItem
  change : Option DurableOutboxChange

/-- The entries of each identity, the latest first. -/
abbrev OutboxEntries : Type :=
  OutboxItemId → List OutboxEntry

/-- The items an identity has had, the latest first. -/
def OutboxEntries.items (entries : OutboxEntries) (id : OutboxItemId) :
    List (Option DurableOutboxItem) :=
  (entries id).map OutboxEntry.item

/-- Notes the entries that a change has made. -/
def OutboxEntries.observe (entries : OutboxEntries) (change : DurableOutboxChange)
    (outbox : Outbox) : OutboxEntries :=
  fun id => if (entries.items id).head? = some outbox[id]? then entries id
    else ⟨outbox[id]?, some change⟩ :: entries id

/-- An item that has moved was last moved in a turn up to the limit. -/
def OutboxEntries.MovedBy (entries : OutboxEntries) (limit : UInt64) : Prop :=
  ∀ id item before rest, entries.items id = some item :: some before :: rest →
    item.updatedTurnSequence ≤ limit

/-- An image with the entries up to now. -/
structure OutboxTrace where
  image : RestoreImage
  entries : OutboxEntries

/-- A trace before any change. -/
def OutboxTrace.start (image : RestoreImage) : OutboxTrace :=
  ⟨image, fun id => [⟨image.outbox[id]?, none⟩]⟩

section Traces

variable (sha256 : List UInt8 → Digest)

/-- The applied changes lead from entry to entry and to the outbox of now. -/
structure OutboxEntries.Follow (entries : OutboxEntries) (outbox : Outbox) : Prop where
  current : ∀ id, (entries.items id).head? = some outbox[id]?
  steps : ∀ id, (entries id).IsChain fun newer older =>
    ∃ change, newer.change = some change ∧ EntryChange sha256 change id older.item newer.item

/-- Notes the entries after each change. -/
def OutboxEntries.observeChanges (outbox : Outbox) (entries : OutboxEntries) :
    List DurableOutboxChange → OutboxEntries
  | [] => entries
  | change :: changes =>
    match applyDurableOutboxChange sha256 outbox change with
    | .ok next => observeChanges next (entries.observe change next) changes
    | .error _ => entries

/-- One successful checkpoint. -/
def OutboxTrace.Step (trace next : OutboxTrace) : Prop :=
  ∃ batch ack, applyCheckpointToImage sha256 trace.image batch = .ok (next.image, ack) ∧
    next.entries = trace.entries.observeChanges sha256 trace.image.outbox batch.outboxChanges

/-- A checkpoint before the turn numbers are used up. -/
def OutboxTrace.NumberedStep (trace next : OutboxTrace) : Prop :=
  trace.Step sha256 next ∧ trace.image.throughTurnSequence ≠ 0xFFFFFFFFFFFFFFFF

/-- The life of every item up to now. -/
structure OutboxTrace.Lawful (trace : OutboxTrace) : Prop where
  follow : trace.entries.Follow sha256 trace.image.outbox
  revisions : ∀ id item (items : List DurableOutboxItem) older,
    trace.entries.items id = some item :: items.map some ++ none :: older →
      item.revision.toNat = items.length
  /-- The validation at the end of the next checkpoint passes. -/
  validated : ∀ changes outboxChanges candidate outbox,
    applyChanges trace.image changes = .ok candidate →
    applyDurableOutboxChanges sha256 candidate.outbox outboxChanges = .ok outbox →
      validateOutbox sha256 outbox = .ok ()

end Traces

section Changes

variable {sha256 : List UInt8 → Digest} {outbox next : Outbox} {id : OutboxItemId}
variable {item : DurableOutboxItem} {change : DurableOutboxChange}
variable {changes : List DurableOutboxChange} {entries : OutboxEntries} {state : DurableOutboxState}
  {attempt : UInt32}

/-- A transition was made before, or it is made now from an allowed state. -/
theorem transitionOutboxItem_eq_ok {expected revision turn : UInt64}
    {desired : DurableOutboxState} {allowed : DurableOutboxState → Bool}
    (done : transitionOutboxItem outbox id expected revision turn desired allowed = .ok next) :
    ∃ item, outbox[id]? = some item ∧ (item.state = desired ∧ next = outbox ∨
      allowed item.state = true ∧ item.updatedTurnSequence ≤ turn ∧
        revision.toNat = item.revision.toNat + 1 ∧
        next = outbox.insert id { item with
          state := desired, revision := revision, updatedTurnSequence := turn }) := by
  simp only [transitionOutboxItem, invalidOutboxTransition, bind_eq_ok_iff, reject_eq_ok_iff,
    okOr_eq_ok_iff, not_not] at done
  rcases done with ⟨_, room, _, rfl, item, found, done⟩
  refine ⟨item, found, ?_⟩
  split at done
  case isTrue same => exact .inl ⟨same.2.2, (pure_eq_ok_iff.mp done).symm⟩
  case isFalse =>
    simp only [bind_eq_ok_iff, reject_eq_ok_iff, not_not, pure_eq_ok_iff, Bool.not_eq_false,
      UInt64.not_lt] at done
    rcases done with ⟨_, rfl, _, onwards, _, fits, rfl⟩
    exact .inr ⟨fits, onwards, toNat_increment room, rfl⟩

theorem next_of_dispatchAllowed
    (allowed : dispatchAllowed attempt state = true) : state.Next (.dispatching attempt) := by
  cases state with
  | pending =>
    obtain rfl := eq_of_beq allowed
    exact .first
  | reconciliationRequired previous =>
    obtain rfl := eq_of_beq allowed
    exact .again previous
  | _ => cases allowed

theorem next_of_reconciliationAllowed (allowed : reconciliationAllowed attempt state = true) :
    state.Next (.reconciliationRequired attempt) := by
  cases state with
  | dispatching current =>
    obtain rfl := eq_of_beq allowed
    exact .reconcile current
  | _ => cases allowed

theorem attempt_of_completionAllowed (allowed : completionAllowed attempt state = true) :
    state ≠ .pending ∧ attempt = state.attempt := by
  cases state with
  | dispatching current | reconciliationRequired current => exact ⟨nofun, (eq_of_beq allowed).symm⟩
  | _ => cases allowed

/-- A change does something to one entry at most. -/
theorem entry_of_applyDurableOutboxChange
    (applied : applyDurableOutboxChange sha256 outbox change = .ok next) (id : OutboxItemId) :
    next[id]? = outbox[id]? ∨ EntryChange sha256 change id outbox[id]? next[id]? := by
  have moves : ∀ {key item moved}, outbox[key]? = some item → OutboxTransition item moved →
      moved.updatedTurnSequence = change.turn → (outbox.insert key moved)[id]? = outbox[id]? ∨
        EntryChange sha256 change id outbox[id]? (outbox.insert key moved)[id]? := by
    intro key item moved found transition turn
    rw [getElem?_insert]
    split
    case isTrue same =>
      rw [← same, found]
      exact .inr (.moved transition turn)
    case isFalse => exact .inl rfl
  cases change with
  | enqueue =>
    simp only [applyDurableOutboxChange, enqueueOutboxItem, invalidOutboxTransition,
      bind_eq_ok_iff, reject_eq_ok_iff, not_or, not_not] at applied
    rcases applied with ⟨_, valid, _, ⟨pending, fresh⟩, applied⟩
    split at applied
    case h_1 existing _ =>
      split at applied
      · cases applied
        exact .inl rfl
      · cases applied
    case h_2 absent =>
      cases applied
      rw [getElem?_insert]
      split
      case isTrue same =>
        rw [← same, absent]
        exact .inr (.enqueued pending fresh valid)
      case isFalse => exact .inl rfl
  | beginDispatch =>
    rcases transitionOutboxItem_eq_ok applied with
      ⟨item, found, ⟨_, rfl⟩ | ⟨allowed, onwards, revision_eq, rfl⟩⟩
    · exact .inl rfl
    · exact moves found ⟨next_of_dispatchAllowed allowed, revision_eq, onwards, rfl⟩ rfl
  | requireReconciliation =>
    rcases transitionOutboxItem_eq_ok applied with
      ⟨item, found, ⟨_, rfl⟩ | ⟨allowed, onwards, revision_eq, rfl⟩⟩
    · exact .inl rfl
    · exact moves found ⟨next_of_reconciliationAllowed allowed, revision_eq, onwards, rfl⟩ rfl
  | complete key expected revision attempt =>
    simp only [applyDurableOutboxChange, bind_eq_ok_iff, pure_eq_ok_iff] at applied
    rcases applied with ⟨_, moved, rfl⟩
    rcases transitionOutboxItem_eq_ok moved with ⟨item, found, done⟩
    have current : item.state ≠ .pending ∧ attempt = item.state.attempt := by
      rcases done with ⟨state_eq, _⟩ | ⟨allowed, _⟩
      · rw [state_eq]
        refine ⟨?_, rfl⟩
        rintro ⟨⟩
      · exact attempt_of_completionAllowed allowed
    obtain ⟨active, rfl⟩ := current
    rw [getElem?_erase]
    split
    case isTrue same =>
      rw [← same, found]
      exact .inr (.completed active)
    case isFalse other =>
      rcases done with ⟨_, rfl⟩ | ⟨_, _, _, rfl⟩
      · exact .inl rfl
      · rw [getElem?_insert, if_neg other]
        exact .inl rfl

theorem validateOutbox_eq_ok_iff :
    validateOutbox sha256 outbox = .ok () ↔ ∀ id item, outbox[id]? = some item →
      id = item.itemId ∧ validateOutboxItem sha256 item = .ok () := by
  simp only [validateOutbox, forM_eq_ok_iff, forall_mem_toList, invalidOutboxTransition,
    bind_eq_ok_iff, reject_eq_ok_iff, not_not, exists_const]

theorem OutboxTransition.validateOutboxItem {next : DurableOutboxItem}
    (transition : OutboxTransition item next) (valid : validateOutboxItem sha256 item = .ok ()) :
    validateOutboxItem sha256 next = .ok () := by
  have active : next.revision ≠ 0 := fun zero =>
    Nat.succ_ne_zero _ (transition.revision.symm.trans (congrArg UInt64.toNat zero))
  have attempts := transition.state
  rw [transition.kept]
  simp only [Persistence.validateOutboxItem, validateOutboxState, bind_eq_ok_iff,
    invalidOutboxTransition, reject_eq_ok_iff, UInt64.not_lt] at valid ⊢
  rcases valid with ⟨_, owner, _, target, _, identity, _, onwards, state⟩
  refine ⟨(), owner, (), target, (), identity, (), UInt64.le_trans onwards transition.turn, ?_⟩
  generalize item.state = before, next.state = after at state attempts ⊢
  cases attempts with
  | first => exact reject_eq_ok_iff.mpr (not_or.mpr ⟨nofun, active⟩)
  | reconcile =>
    have positive := (not_or.mp (reject_eq_ok_iff.mp state)).1
    exact reject_eq_ok_iff.mpr (not_or.mpr ⟨positive, active⟩)
  | again attempt =>
    have positive := (not_or.mp (reject_eq_ok_iff.mp state)).1
    refine reject_eq_ok_iff.mpr (not_or.mpr ⟨?_, active⟩)
    show ¬ (if attempt = 0xFFFFFFFF then attempt else attempt + 1) = 0
    split
    case isTrue => exact positive
    case isFalse below => exact fun wrapped => below (by grind)

theorem validateOutbox_applyDurableOutboxChange (valid : validateOutbox sha256 outbox = .ok ())
    (applied : applyDurableOutboxChange sha256 outbox change = .ok next) :
    validateOutbox sha256 next = .ok () := by
  rw [validateOutbox_eq_ok_iff] at valid ⊢
  intro id item found
  have changed := entry_of_applyDurableOutboxChange applied id
  rw [found] at changed
  rcases changed with same | changed
  · exact valid id item same.symm
  · generalize before_eq : outbox[id]? = before at changed
    cases changed with
    | enqueued _ _ accepted => exact ⟨rfl, accepted⟩
    | moved transition _ =>
      rcases valid id _ before_eq with ⟨key, accepted⟩
      refine ⟨?_, transition.validateOutboxItem accepted⟩
      rw [transition.kept]
      exact key

/-- What every change keeps holds of the trace of all changes. -/
theorem observeChanges_invariant (Property : Outbox → OutboxEntries → Prop)
    (round : ∀ change ∈ changes, ∀ outbox next entries,
      applyDurableOutboxChange sha256 outbox change = .ok next → Property outbox entries →
        Property next (entries.observe change next)) (holds : Property outbox entries)
    (applied : applyDurableOutboxChanges sha256 outbox changes = .ok next) :
    Property next (entries.observeChanges sha256 outbox changes) := by
  induction changes generalizing outbox entries with
  | nil => exact pure_eq_ok_iff.mp applied ▸ holds
  | cons change changes ih =>
    rw [applyDurableOutboxChanges, List.foldlM_cons, bind_eq_ok_iff] at applied
    rcases applied with ⟨middle, first, rest⟩
    rw [List.forall_mem_cons] at round
    rw [OutboxEntries.observeChanges, first]
    exact ih round.2 (round.1 outbox middle entries first holds) rest

theorem OutboxEntries.Follow.observe (follow : entries.Follow sha256 outbox)
    (applied : applyDurableOutboxChange sha256 outbox change = .ok next) :
    (entries.observe change next).Follow sha256 next := by
  refine ⟨fun id => ?_, fun id => ?_⟩
  · rw [OutboxEntries.items, OutboxEntries.observe]
    split
    case isTrue current => exact current
    case isFalse => rfl
  · rw [OutboxEntries.observe]
    split
    case isTrue => exact follow.steps id
    case isFalse changed =>
      rw [follow.current id, Option.some.injEq] at changed
      have steps := follow.steps id
      have current := follow.current id
      rw [OutboxEntries.items] at current
      cases entries_eq : entries id with
      | nil => simp [entries_eq] at current
      | cons older rest =>
        rw [entries_eq] at steps current
        have entry := entry_of_applyDurableOutboxChange applied id
        rw [← Option.some.inj current] at entry changed
        exact .cons_cons ⟨change, rfl, entry.resolve_left (changed ·.symm)⟩ steps

theorem OutboxEntries.MovedBy.observe {limit : UInt64} (moved : entries.MovedBy limit)
    (follow : entries.Follow sha256 outbox)
    (applied : applyDurableOutboxChange sha256 outbox change = .ok next)
    (inside : change.turn ≤ limit) : (entries.observe change next).MovedBy limit := by
  intro id item before rest items_eq
  rw [OutboxEntries.items, OutboxEntries.observe] at items_eq
  split at items_eq
  case isTrue => exact moved id item before rest items_eq
  case isFalse changed =>
    rcases List.cons.inj items_eq with ⟨later, older⟩
    have earlier := follow.current id
    rw [OutboxEntries.items, older, List.head?_cons, Option.some.injEq] at earlier
    rw [follow.current id, Option.some.injEq] at changed
    have entry := (entry_of_applyDurableOutboxChange applied id).resolve_left (changed ·.symm)
    rw [← earlier, show next[id]? = some item from later] at entry
    cases entry with
    | moved _ turn => exact turn ▸ inside

theorem OutboxEntries.Follow.isChain_items (follow : entries.Follow sha256 outbox)
    (id : OutboxItemId) : (entries.items id).IsChain fun newer older =>
      ∃ change, EntryChange sha256 change id older newer :=
  (List.isChain_map _).mpr ((follow.steps id).imp fun _ _ step => step.imp fun _ made => made.2)

/-- A new item starts at revision zero, so its revision counts its transitions. -/
theorem revision_eq_length {items : List DurableOutboxItem}
    {older : List (Option DurableOutboxItem)}
    (steps : (some item :: items.map some ++ none :: older).IsChain fun newer older =>
      ∃ change, EntryChange sha256 change id older newer) : item.revision.toNat = items.length := by
  induction items generalizing item with
  | nil =>
    rcases (List.isChain_cons_cons.mp steps).1 with ⟨_, ⟨_, fresh, _⟩⟩
    rw [fresh]
    rfl
  | cons before items ih =>
    rcases List.isChain_cons_cons.mp steps with ⟨⟨change, first⟩, steps⟩
    cases first with
    | moved transition => rw [transition.revision, ih steps, List.length_cons]

end Changes

section Runs

variable {sha256 : List UInt8 → Digest} {initial : RestoreImage} {trace next : OutboxTrace}

theorem outbox_applyChanges {image edited : RestoreImage} {changes : List DurableChange}
    (applied : applyChanges image changes = .ok edited) : edited.outbox = image.outbox :=
  congrArg (·.outbox) (header_applyChanges applied)

theorem OutboxTrace.Step.exists_changes (step : trace.Step sha256 next) :
    ∃ changes, applyDurableOutboxChanges sha256 trace.image.outbox changes = .ok next.image.outbox ∧
      next.entries = trace.entries.observeChanges sha256 trace.image.outbox changes ∧
      validateOutbox sha256 next.image.outbox = .ok () ∧
      (∀ change ∈ changes, change.turn ≤ next.image.throughTurnSequence) ∧
      trace.image.throughTurnSequence + 1 ≤ next.image.throughTurnSequence := by
  rcases step with ⟨batch, ack, applied, entries_eq⟩
  simp only [applyCheckpointToImage, validateCheckpoint, invalidOutboxTransition, bind_eq_ok_iff,
    reject_eq_ok_iff, forM_eq_ok_iff, pure_eq_ok_iff, not_or, not_not, UInt64.not_lt,
    Prod.mk.injEq] at applied
  rcases applied with ⟨_, ⟨_, _, inside⟩, _, _, _, _, _, _, _, ⟨first, last⟩, _, edited,
    outbox, changed, _, _, _, valid, image_eq, _⟩
  rw [outbox_applyChanges edited] at changed
  rw [← image_eq]
  exact ⟨batch.outboxChanges, changed, entries_eq, valid, fun change member =>
    (inside change member).2, first ▸ last⟩

theorem OutboxTrace.Step.follow (step : trace.Step sha256 next)
    (follow : trace.entries.Follow sha256 trace.image.outbox) :
    next.entries.Follow sha256 next.image.outbox := by
  rcases step.exists_changes with ⟨_, applied, entries_eq, _⟩
  rw [entries_eq]
  exact observeChanges_invariant (fun outbox entries => entries.Follow sha256 outbox)
    (fun _ _ _ _ _ applied before => before.observe applied) follow applied

theorem OutboxTrace.NumberedStep.movedBy (step : trace.NumberedStep sha256 next)
    (follow : trace.entries.Follow sha256 trace.image.outbox)
    (moved : trace.entries.MovedBy trace.image.throughTurnSequence) :
    next.entries.MovedBy next.image.throughTurnSequence := by
  rcases step.1.exists_changes with ⟨_, applied, entries_eq, _, inside, _⟩
  have onwards : trace.image.throughTurnSequence ≤ next.image.throughTurnSequence := by
    have numbered := step.2
    grind
  rw [entries_eq]
  refine (observeChanges_invariant (fun outbox entries => entries.Follow sha256 outbox ∧
    entries.MovedBy next.image.throughTurnSequence) ?_ ⟨follow, ?_⟩ applied).2
  · intro change member outbox next entries applied before
    exact ⟨before.1.observe applied, before.2.observe before.1 applied (inside change member)⟩
  · intro id item before rest entries_eq
    exact UInt64.le_trans (moved id item before rest entries_eq) onwards

theorem OutboxTrace.follow_of_run
    (run : ReflTransGen (OutboxTrace.Step sha256) (.start initial) trace) :
    trace.entries.Follow sha256 trace.image.outbox := by
  induction run with
  | refl => exact ⟨fun _ => rfl, fun _ => .singleton _⟩
  | tail _ step ih => exact step.follow ih

theorem OutboxTrace.movedBy_of_run
    (run : ReflTransGen (OutboxTrace.NumberedStep sha256) (.start initial) trace) :
    trace.entries.MovedBy trace.image.throughTurnSequence := by
  induction run with
  | refl =>
    intro id item before rest entries_eq
    cases (List.cons.inj entries_eq).2
  | tail earlier step ih =>
    have plain := ReflTransGen.mono (fun _ _ numbered => numbered.1) _ _ earlier
    exact step.movedBy (follow_of_run plain) ih

/-- Along every run of checkpoints the items live by the automaton, and moves stay within the
turns of the image. -/
theorem outbox_life_cycle (valid : validateOutbox sha256 initial.outbox = .ok ())
    (run : ReflTransGen (OutboxTrace.Step sha256) (.start initial) trace) :
    trace.Lawful sha256 ∧
      (ReflTransGen (OutboxTrace.NumberedStep sha256) (.start initial) trace →
        trace.entries.MovedBy trace.image.throughTurnSequence) := by
  have follow := OutboxTrace.follow_of_run run
  have accepted : validateOutbox sha256 trace.image.outbox = .ok () := by
    cases run with
    | refl => exact valid
    | tail _ step =>
      rcases step.exists_changes with ⟨_, _, _, accepted, _⟩
      exact accepted
  refine ⟨⟨follow, ?_, ?_⟩, OutboxTrace.movedBy_of_run⟩
  · intro id item items older entries_eq
    exact revision_eq_length (entries_eq ▸ follow.isChain_items id)
  · intro changes outboxChanges candidate outbox edited applied
    rw [outbox_applyChanges edited] at applied
    exact foldlM_invariant _ (fun _ _ _ _ before step =>
      validateOutbox_applyDurableOutboxChange before step) accepted applied

end Runs

def sampleItem (updatedTurnSequence : UInt64) : DurableOutboxItem where
  itemId := ofByte 0
  invocationId := ofByte 1
  effectId := ofByte 2
  owner := ⟨[]⟩
  targetRow := none
  idempotencyKey := .text ""
  intent := .text ""
  state := .pending
  revision := 0
  createdTurnSequence := 1
  updatedTurnSequence := updatedTurnSequence

/-- An item that is completed from its reconciliation, and one that claims a later turn. -/
def strayCheckpoint : CheckpointBatch :=
  { sampleCheckpoint [] [] with
    outboxChanges := [
      .enqueue (sampleItem 1),
      .beginDispatch (ofByte 0) 0 1 1 1,
      .requireReconciliation (ofByte 0) 1 2 1 1,
      .complete (ofByte 0) 2 3 1 (.text "") 1,
      .enqueue (sampleItem 5)] }

def strayImage : RestoreImage :=
  { RestoreImage.empty sampleApplication 1 (ofByte 7) with
    epoch := 1
    throughTurnSequence := 1
    outbox := .ofList [(ofByte 0, sampleItem 5)] }

def strayTrace : OutboxTrace :=
  ⟨strayImage, fun id => OutboxEntries.observeChanges zeroHash ∅ (fun _ => [⟨none, none⟩])
    strayCheckpoint.outboxChanges id⟩

theorem step_strayTrace :
    (OutboxTrace.start (.empty sampleApplication 1 (ofByte 7))).Step zeroHash strayTrace :=
  ⟨strayCheckpoint, ⟨1, 1⟩, by decide, rfl⟩

theorem outbox_life_cycle_strayTrace :
    ReflTransGen (OutboxTrace.Step zeroHash)
      (.start (.empty sampleApplication 1 (ofByte 7))) strayTrace ∧
    strayTrace.Lawful zeroHash ∧ strayTrace.entries.MovedBy 1 := by
  have lived := outbox_life_cycle (by decide) (.single step_strayTrace)
  exact ⟨.single step_strayTrace, lived.1, lived.2 (.single ⟨step_strayTrace, by decide⟩)⟩

/-- An attempt under reconciliation can be completed, and a new item can carry a turn beyond
the turns of the image. -/
theorem strayTrace_outside_life_cycle :
    validateOutbox zeroHash (RestoreImage.empty sampleApplication 1 (ofByte 7)).outbox = .ok () ∧
    ReflTransGen (OutboxTrace.Step zeroHash)
      (.start (.empty sampleApplication 1 (ofByte 7))) strayTrace ∧
    strayTrace.entries.items (ofByte 0) =
      [some (sampleItem 5), none,
        some { sampleItem 1 with state := .reconciliationRequired 1, revision := 2 },
        some { sampleItem 1 with state := .dispatching 1, revision := 1 },
        some (sampleItem 1), none] ∧
    strayTrace.image.throughTurnSequence < (sampleItem 5).updatedTurnSequence :=
  ⟨by decide, .single step_strayTrace, by decide, by decide⟩

end BoonCircuit.Persistence
