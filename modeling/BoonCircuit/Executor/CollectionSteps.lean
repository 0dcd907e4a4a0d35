import BoonCircuit.Executor.TurnInvariant

/-!
# Steps beside the lists

Mutations of collections and effects leave the lists alone.  A step keeps the
invariant of a turn when it leads from a turn in progress to a turn in progress
or fails in a turn that can be taken back.
-/

namespace BoonCircuit.Executor

open Lib Checks Action BTreeMap BTreeSet

variable {V S : Type} [RuntimeValue V]
  {delta : AuthorityDelta V}

/-- The numbers that effect calls are made under, and the calls still to be made. -/
def Session.numbers (session : Session V S) :=
  (session.machine.launchEpoch, session.machine.transientEffectScope,
    session.machine.nextTransientEffectSequence, session.work.transientEffects)

/-- What a session knows about effect calls. -/
def Session.calls (session : Session V S) :=
  (session.machine.pendingTransientEffects, session.numbers)

/-- What steps beside the lists and the effect calls leave alone. -/
structure Steady (before after : Session V S) : Prop where
  lists : after.machine.lists = before.machine.lists
  touchedLists : after.machine.touchedLists = before.machine.touchedLists
  touchedRowFields : after.machine.touchedRowFields = before.machine.touchedRowFields
  collections : ∀ {address : CollectionAuthorityAddress V},
    address ∈ before.work.undoCollectionAuthorities → address ∈ after.work.undoCollectionAuthorities
  calls : after.calls = before.calls

theorem Steady.refl (session : Session V S) : Steady session session :=
  ⟨rfl, rfl, rfl, id, rfl⟩

theorem Steady.trans {first second third : Session V S} (earlier : Steady first second)
    (later : Steady second third) : Steady first third :=
  ⟨later.lists.trans earlier.lists, later.touchedLists.trans earlier.touchedLists,
    later.touchedRowFields.trans earlier.touchedRowFields,
    fun covers => later.collections (earlier.collections covers), later.calls.trans earlier.calls⟩

/-- The step keeps the invariant and leaves lists and effect calls alone. -/
def Keeps {α : Type} (initial : MachineInstance V S) (action : Step V S α)
    (before : Session V S) : Prop :=
  wp action (Fallen initial) (fun _ after => InTurn initial after ∧ Steady before after) before

/-- The step keeps the invariant and leaves effect calls alone. -/
def Stays {α : Type} (initial : MachineInstance V S) (action : Step V S α)
    (before : Session V S) : Prop :=
  wp action (Fallen initial) (fun _ after => InTurn initial after ∧ after.calls = before.calls)
    before

/-- The step keeps the invariant. -/
def Runs {α : Type} (initial : MachineInstance V S) (action : Step V S α)
    (before : Session V S) : Prop :=
  wp action (Fallen initial) (fun _ => InTurn initial) before

section Rules

variable {α β : Type} {initial : MachineInstance V S} {before : Session V S}
  {outcome : Except Error α}

section InTurn

variable (inTurn : InTurn initial before) {next : α → Step V S β}

include inTurn

theorem keeps_pure {result : α} : Keeps initial (pure result) before :=
  ⟨inTurn, .refl before⟩

theorem keeps_attempt : Keeps initial (attempt outcome) before :=
  (wp_attempt_of_failed inTurn.fallen).mpr fun _ _ => ⟨inTurn, .refl before⟩

omit inTurn in
theorem keeps_modify {change : Session V S → Session V S} (inTurn : InTurn initial (change before))
    (steady : Steady before (change before)) : Keeps initial (modify change) before :=
  ⟨inTurn, steady⟩

omit inTurn in
theorem Keeps.bind {first : Step V S α} (keeps : Keeps initial first before)
    (rest : ∀ result after, InTurn initial after → Steady before after →
      Keeps initial (next result) after) : Keeps initial (first >>= next) before := by
  unfold Keeps
  apply wp.bind keeps
  rintro result after ⟨inTurn, steady⟩
  apply (rest result after inTurn steady).weaken
  rintro _ _ ⟨inTurn, later⟩
  exact ⟨inTurn, steady.trans later⟩

omit inTurn in
theorem Stays.bind {first : Step V S α} (stays : Stays initial first before)
    (rest : ∀ result after, InTurn initial after → Stays initial (next result) after) :
    Stays initial (first >>= next) before := by
  unfold Stays
  apply wp.bind stays
  rintro result after ⟨inTurn, calls⟩
  apply (rest result after inTurn).weaken
  rintro _ _ ⟨inTurn, later⟩
  exact ⟨inTurn, later.trans calls⟩

omit inTurn in
theorem Keeps.stays {action : Step V S α} (keeps : Keeps initial action before) :
    Stays initial action before :=
  keeps.weaken fun _ _ kept => ⟨kept.1, kept.2.calls⟩

omit inTurn in
theorem keeps_get_bind {next : Session V S → Step V S β}
    (rest : Keeps initial (next before) before) :
    Keeps initial (get >>= next) before := by
  unfold Keeps
  rw [wp_bind]
  exact rest

theorem keeps_attempt_bind
    (rest : ∀ result, outcome = .ok result → Keeps initial (next result) before) :
    Keeps initial (attempt outcome >>= next) before := by
  unfold Keeps
  rwa [wp_bind, wp_attempt_of_failed inTurn.fallen]

theorem keeps_forM {items : List β} {body : β → Step V S PUnit}
    (round : ∀ item ∈ items, ∀ session, InTurn initial session →
      Keeps initial (body item) session) :
    Keeps initial (items.forM body) before := by
  have loop : wp (items.forM body) (Fallen initial)
      (fun _ session => InTurn initial session ∧ Steady before session) before := by
    apply wp_forM ⟨inTurn, .refl before⟩
    rintro item member session ⟨inTurn, steady⟩
    apply (round item member session inTurn).weaken
    rintro _ _ ⟨inTurn, later⟩
    exact ⟨inTurn, steady.trans later⟩
  exact loop

theorem keeps_modifyWork {change : Work V S → Work V S}
    (same : (change before.work).logs = before.work.logs) :
    Keeps initial (modifyWork change) before := by
  refine keeps_modify ⟨?_, inTurn.wellFormed⟩ ⟨rfl, rfl, rfl, ?_, ?_⟩
  · dsimp only
    rw [same]
    exact inTurn.undoable
  · intro address covers
    change address ∈ (change before.work).logs.undoCollectionAuthorities
    rw [same]
    exact covers
  · exact congrArg (fun logs : UndoLogs V S => (_, _, _, _, logs.staged)) same

theorem keeps_pushEmitted : Keeps initial (pushEmitted delta) before := by
  apply keeps_modifyWork inTurn
  split <;> rfl

theorem keeps_consume {units : UInt64} : Keeps initial (consume units) before := by
  apply keeps_get_bind
  apply keeps_attempt_bind inTurn
  intro _ _
  exact keeps_modifyWork inTurn rfl

end InTurn

end Rules

section Collections

variable {β : Type} {initial : MachineInstance V S} {before : Session V S}
  {address : CollectionAuthorityAddress V} {site : CollectionProducerSite V}
  (inTurn : InTurn initial before) {operation : PendingCollectionOperation V}
  {key : PendingCollectionOperationKey V} {state : CollectionAuthorityState V} {doing : String}
include inTurn

theorem wp_recordCollectionAuthorityUndo :
    wp (recordCollectionAuthorityUndo address) (Fallen initial) (fun _ after =>
      (InTurn initial after ∧ Steady before after) ∧
        address ∈ after.work.undoCollectionAuthorities) before := by
  unfold recordCollectionAuthorityUndo
  rw [wp_modify]
  split
  · next covers => exact ⟨⟨inTurn, .refl before⟩, covers⟩
  · refine ⟨⟨⟨?_, inTurn.wellFormed⟩, rfl, rfl, rfl, ?_, rfl⟩, mem_insert.mpr (.inl rfl)⟩
    · exact inTurn.undoable.note (fun _ similar => undo_collection similar) rfl (fun _ => .rfl) rfl
        fun _ _ _ => id
    · exact fun covers => mem_insert.mpr (.inr covers)

theorem keeps_recordCollectionAuthorityUndo_bind {next : Unit → Step V S β}
    (rest : ∀ after, InTurn initial after → Steady before after →
      address ∈ after.work.undoCollectionAuthorities → Keeps initial (next ()) after) :
    Keeps initial (recordCollectionAuthorityUndo address >>= next) before := by
  apply (wp_recordCollectionAuthorityUndo inTurn).bind
  rintro _ after ⟨⟨inTurn, steady⟩, covers⟩
  apply (rest after inTurn steady covers).weaken
  rintro _ _ ⟨inTurn, later⟩
  exact ⟨inTurn, steady.trans later⟩

theorem keeps_changeCollections
    (change : BTreeMap (CollectionAuthorityAddress V) (CollectionAuthorityState V) →
      BTreeMap (CollectionAuthorityAddress V) (CollectionAuthorityState V))
    (covers : address ∈ before.work.undoCollectionAuthorities)
    (elsewhere : ∀ other, other ≠ address →
      (change before.machine.collectionAuthorities)[other]? =
        before.machine.collectionAuthorities[other]?) :
    Keeps initial (modifyMachine fun machine => { machine with
      collectionAuthorities := change machine.collectionAuthorities }) before := by
  refine keeps_modify ⟨?_, inTurn.wellFormed.lists, inTurn.wellFormed.touched⟩
    ⟨rfl, rfl, rfl, id, rfl⟩
  refine inTurn.undoable.unlogged { Agree.refl before.machine with collections := ?_ } rfl rfl
  intro other free
  apply elsewhere
  rintro rfl
  exact free covers

theorem keeps_putCollection (covers : address ∈ before.work.undoCollectionAuthorities) :
    Keeps initial (putCollection address state) before := by
  apply keeps_changeCollections inTurn (·.insert address state) covers
  intro other apart
  rw [getElem?_insert, if_neg (Ne.symm apart)]

theorem keeps_announceCollection (covers : address ∈ before.work.undoCollectionAuthorities) :
    Keeps initial (putCollection address state >>= fun _ => pushEmitted delta) before := by
  apply (keeps_putCollection inTurn covers).bind
  intro _ after inTurn _
  exact keeps_pushEmitted inTurn

theorem keeps_ensureAuthority : Keeps initial (ensureMapAuthority address) before ∧
    Keeps initial (ensureSetAuthority address) before := by
  constructor
  all_goals
    apply keeps_get_bind
    split
    · exact keeps_pure inTurn
    · exact keeps_attempt inTurn
    · apply keeps_recordCollectionAuthorityUndo_bind inTurn
      intro after inTurn _ covers
      exact keeps_announceCollection inTurn covers

theorem keeps_changeProducer
    (change : BTreeMap (CollectionProducerSite V) (CollectionProducerCandidate V) →
      BTreeMap (CollectionProducerSite V) (CollectionProducerCandidate V))
    (elsewhere : ∀ other, other ≠ site → (change before.machine.collectionProducers)[other]? =
      before.machine.collectionProducers[other]?) :
    Keeps initial (do
      recordCollectionProducerUndo site
      modifyMachine fun machine => { machine with
        collectionProducers := change machine.collectionProducers }) before := by
  have written : ∀ session : Session V S, InTurn initial session →
      site ∈ session.work.undoCollectionProducers →
      session.machine = before.machine → InTurn initial { session with machine :=
        { session.machine with
          collectionProducers := change session.machine.collectionProducers } } := by
    intro session inTurn covers same
    refine ⟨?_, inTurn.wellFormed.lists, inTurn.wellFormed.touched⟩
    refine inTurn.undoable.unlogged { Agree.refl session.machine with producers := ?_ } rfl rfl
    intro other free
    rw [same]
    apply elsewhere
    rintro rfl
    exact free covers
  unfold Keeps recordCollectionProducerUndo
  rw [wp_bind, wp_modify]
  split
  · next covers => exact ⟨written before inTurn covers rfl, rfl, rfl, rfl, id, rfl⟩
  · refine ⟨written _ ⟨?_, inTurn.wellFormed⟩ (mem_insert.mpr (.inl rfl)) rfl, rfl, rfl, rfl, id,
      rfl⟩
    exact inTurn.undoable.note (fun _ similar => undo_collectionProducer similar) rfl
      (fun _ => .rfl) rfl fun _ _ _ => id

theorem keeps_retireProducer : Keeps initial (retireProducer site) before := by
  apply keeps_changeProducer inTurn (·.erase site)
  intro other apart
  rw [getElem?_erase, if_neg (Ne.symm apart)]

theorem keeps_retireCollection : Keeps initial (retireCollection address) before := by
  apply keeps_recordCollectionAuthorityUndo_bind inTurn
  intro after inTurn _ covers
  apply keeps_get_bind
  apply Keeps.bind (keeps_changeCollections inTurn (·.erase address) covers _)
  · intro _ final inTurn _
    split
    · exact keeps_pushEmitted inTurn
    · exact keeps_pushEmitted inTurn
    · exact keeps_pure inTurn
  · intro other apart
    rw [getElem?_erase, if_neg (Ne.symm apart)]

theorem keeps_retireCollectionAuthorities {selected : CollectionAuthorityAddress V → Bool} :
    Keeps initial (retireCollectionAuthorities selected) before := by
  apply keeps_get_bind
  apply (keeps_forM inTurn fun _ _ _ => keeps_retireProducer).bind
  intro _ after inTurn _
  exact keeps_forM inTurn fun _ _ _ => keeps_retireCollection

theorem keeps_discardUnattachedCollectionAuthorities {ownerRows : Ancestry} :
    Keeps initial (discardUnattachedCollectionAuthorities ownerRows) before := by
  apply keeps_get_bind
  dsimp only
  split
  · apply Keeps.bind (keeps_modifyWork inTurn rfl)
    intro _ after inTurn _
    apply (keeps_retireCollectionAuthorities inTurn).bind
    intro _ after inTurn _
    exact keeps_modifyWork inTurn rfl
  · exact keeps_pure inTurn

theorem keeps_admitCollectionOperation :
    Keeps initial (admitCollectionOperation key operation) before := by
  apply keeps_get_bind
  split
  · apply Keeps.bind (keeps_modifyWork inTurn rfl)
    intro _ after inTurn _
    exact keeps_pure inTurn
  · split
    · exact keeps_pure inTurn
    · split
      · exact keeps_attempt inTurn
      · apply Keeps.bind (keeps_modifyWork inTurn rfl)
        intro _ after inTurn _
        exact keeps_pure inTurn

theorem keeps_admitted {next : PUnit → Step V S Unit}
    (rest : ∀ after, InTurn initial after → Keeps initial (next ⟨⟩) after) :
    Keeps initial (do
      let fresh ← admitCollectionOperation key operation
      if fresh then consume 1 >>= next else pure ()) before := by
  apply (keeps_admitCollectionOperation inTurn).bind
  intro fresh after inTurn _
  split
  · apply (keeps_consume inTurn).bind
    exact fun _ after inTurn _ => rest after inTurn
  · exact keeps_pure inTurn

theorem keeps_nextCollectionRevision {current : UInt64} :
    Keeps initial (nextCollectionRevision current) before := by
  apply keeps_get_bind
  split
  · exact keeps_attempt inTurn
  · exact keeps_pure inTurn

theorem keeps_mapAuthority : Keeps initial (mapAuthority address doing) before := by
  apply keeps_get_bind
  split
  · exact keeps_pure inTurn
  · exact keeps_attempt inTurn

theorem keeps_setAuthority : Keeps initial (setAuthority address doing) before := by
  apply keeps_get_bind
  split
  · exact keeps_pure inTurn
  · exact keeps_attempt inTurn

theorem keeps_noted {α : Type} {read : Step V S α} {current : α → UInt64}
    {next : α → UInt64 → Step V S β}
    (reads : ∀ {after : Session V S}, InTurn initial after → Keeps initial read after)
    (rest : ∀ authority revision after, InTurn initial after →
      address ∈ after.work.undoCollectionAuthorities →
      Keeps initial (next authority revision) after) :
    Keeps initial (do
      recordCollectionAuthorityUndo address
      let authority ← read
      let revision ← nextCollectionRevision (current authority)
      next authority revision) before := by
  apply keeps_recordCollectionAuthorityUndo_bind inTurn
  intro noted inTurn _ covers
  apply (reads inTurn).bind
  intro authority after inTurn toAuthority
  apply (keeps_nextCollectionRevision inTurn).bind
  intro revision after inTurn toRevision
  exact rest _ _ _ inTurn (toRevision.collections (toAuthority.collections covers))

theorem keeps_ensureMapKeyGeneration {key : V} :
    Keeps initial (ensureMapKeyGeneration address key) before := by
  apply (keeps_mapAuthority inTurn).bind
  intro authority after inTurn _
  split
  · apply keeps_attempt_bind inTurn
    intro _ _
    exact keeps_pure inTurn
  · apply keeps_attempt_bind inTurn
    intro _ _
    apply keeps_recordCollectionAuthorityUndo_bind inTurn
    intro after inTurn _ covers
    apply keeps_attempt_bind inTurn
    intro _ _
    apply keeps_attempt_bind inTurn
    intro next _
    apply (keeps_putCollection inTurn covers).bind
    intro _ final inTurn _
    exact keeps_pure inTurn

theorem keeps_submitMapUpsert {plan : Plan V S} {key value : V} :
    Keeps initial (submitMapUpsert plan address key value) before := by
  apply keeps_admitted inTurn
  intro after inTurn
  apply (keeps_ensureMapKeyGeneration inTurn).bind
  intro generation after inTurn _
  apply keeps_get_bind
  apply keeps_attempt_bind inTurn
  intro _ _
  apply keeps_noted inTurn (keeps_mapAuthority ·)
  intro authority revision after inTurn covers
  dsimp only
  split
  · apply (keeps_putCollection inTurn covers).bind
    intro _ after inTurn _
    apply (keeps_forM inTurn fun _ _ _ inTurn => keeps_retireCollectionAuthorities inTurn).bind
    intro _ after inTurn _
    exact keeps_pushEmitted inTurn
  · exact keeps_pure inTurn

theorem keeps_submitMapRemove {key : V} : Keeps initial (submitMapRemove address key) before := by
  apply keeps_admitted inTurn
  intro after inTurn
  apply keeps_noted inTurn (keeps_mapAuthority ·)
  intro authority revision after inTurn covers
  apply keeps_get_bind
  apply (keeps_putCollection inTurn covers).bind
  intro _ after inTurn _
  apply keeps_attempt_bind inTurn
  intro _ _
  have retired : Keeps initial
      (authority.keyGenerations[key]?.forM (retireMapKeyCollections address key)) after := by
    cases authority.keyGenerations[key]? with
    | none => exact keeps_pure inTurn
    | some => exact keeps_retireCollectionAuthorities inTurn
  apply retired.bind
  intro _ after inTurn _
  split
  · exact keeps_pushEmitted inTurn
  · exact keeps_pure inTurn

theorem keeps_submitSet {item : V} : Keeps initial (submitSetAdd address item) before ∧
    Keeps initial (submitSetRemove address item) before := by
  constructor
  all_goals
    apply keeps_admitted inTurn
    intro after inTurn
    apply keeps_noted inTurn (keeps_setAuthority ·)
    intro authority revision after inTurn covers
    apply keeps_get_bind
    split
    · exact keeps_announceCollection inTurn covers
    · exact keeps_pure inTurn

theorem keeps_updateCollectionProducer {candidate : CollectionProducerCandidate V} :
    Keeps initial (updateCollectionProducer site candidate) before := by
  apply keeps_get_bind
  dsimp only
  split
  · exact keeps_pure inTurn
  · apply keeps_attempt_bind inTurn
    intro _ _
    rw [← bind_assoc]
    apply Keeps.bind (keeps_changeProducer inTurn (·.insert site candidate) _)
    · intro _ after inTurn _
      exact keeps_pure inTurn
    · intro other apart
      rw [getElem?_insert, if_neg (Ne.symm apart)]

end Collections

end BoonCircuit.Executor
