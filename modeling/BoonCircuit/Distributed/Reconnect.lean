import BoonCircuit.Distributed.Link

/-!
# Two links across reconnects

A client and a session exchange data frames, acknowledgements and requests to resync over
a network that may drop, repeat, delay and reorder them.  A connection may be lost at any
time, and each party goes on in a newer generation from what the other has applied.  Every
party applies the operations 1, 2, 3, … once and in order.
-/

namespace BoonCircuit.Distributed

open Lib Checks ClientSessionLink Function List

/-- The two ends of a link. -/
inductive Peer where
  | client
  | session
  deriving DecidableEq

def Peer.other : Peer → Peer
  | .client => .session
  | .session => .client

/-- An operation that a link has applied, with the generation of its frame and of the link. -/
structure Application where
  operationSequence : UInt64
  frameGeneration : UInt64
  linkGeneration : UInt64

/-- A link with its history, which no operation reads. -/
structure Party (F : Type) where
  link : ClientSessionLink F
  connected : Bool
  applied : List Application
  /-- Nothing has been applied in the current generation. -/
  fresh : Bool
  /-- What the peer had applied when the current generation began. -/
  base : UInt64
  /-- The first operation sent in the current generation. -/
  firstSent : Option UInt64

/-- Both parties and what they have sent. -/
structure Connection (V F : Type) where
  party : Peer → Party F
  /-- Every frame that the party has ever sent. -/
  wire : Peer → List (ClientSessionFrame V)

/-- What can happen to a connection. -/
inductive ConnectionEvent (V : Type) where
  | send (peer : Peer) (message : DistributedMessage V)
  /-- An operation that was sent before is sent again. -/
  | resend (peer : Peer) (operationSequence : UInt64) (message : DistributedMessage V)
  /-- A frame of the other party arrives, possibly not for the first time. -/
  | deliver (peer : Peer) (position : Nat)
  /-- The control frame that is due is sent. -/
  | control (peer : Peer)
  /-- The transport has taken a control frame over. -/
  | controlTaken (peer : Peer) (control : SentControl)
  /-- The transport has taken a data frame over, with its acknowledgement. -/
  | dataTaken (peer : Peer) (ackThrough : UInt64)
  | disconnect (peer : Peer)
  | rebind (peer : Peer) (generation : UInt64)

namespace Party

variable {V F : Type}

def new (graphHash schemaHash : Identity) (graphRevision : UInt64) (sessionId : Identity)
    (generation : UInt64) : Party F where
  link := .new graphHash schemaHash graphRevision sessionId generation
  connected := true
  applied := []
  fresh := true
  base := 0
  firstSent := none

def send (party : Party F) : Option (UInt64 × Party F) :=
  party.link.allocateOperationSequence.toOption.map fun (sequence, link) =>
    (sequence, { party with
      link := link
      firstSent := party.firstSent.or (some sequence) })

def receive [DecidableEq F] (codec : Codec V F) (party : Party F)
    (frame : ClientSessionFrame V) : Option (Party F) := do
  guard (party.connected = true)
  (party.link.decodeIdentity frame).toOption
  match frame with
  | .data _ _ _ _ generation operationSequence ackThrough message =>
    let fingerprint ← (codec.semanticFingerprint message).toOption
    let (_, acknowledged) ← (party.link.acceptPeerAck ackThrough).toOption
    let (operation, link) ← (acknowledged.receiveData operationSequence fingerprint).toOption
    if operation = .next then
      return { party with
        link := link
        applied := party.applied ++ [⟨operationSequence, generation, party.link.generation⟩]
        fresh := false }
    else return { party with link := link }
  | .ack _ _ ackThrough =>
    let (_, acknowledged) ← (party.link.acceptPeerAck ackThrough).toOption
    return { party with link := acknowledged }
  -- what is asked for is sent by later steps
  | .resync .. => return party

/-- A party rebinds first, when the other one is cut off in an older generation, or second,
in the generation that the other one has already. -/
def mayRebind (peer : Party F) (generation : UInt64) : Prop :=
  peer.link.generation = generation ∨ peer.link.generation < generation ∧ peer.connected = false

instance {peer : Party F} {generation : UInt64} : Decidable (peer.mayRebind generation) :=
  inferInstanceAs (Decidable (_ ∨ _))

def rebind (party peer : Party F) (generation : UInt64) : Option (Party F) := do
  guard (peer.mayRebind generation)
  let link ← (party.link.rebind generation peer.link.appliedReceiveThrough).toOption
  return { party with
    link := link
    connected := true
    fresh := true
    base := peer.link.appliedReceiveThrough
    firstSent := none }

end Party

namespace Connection

variable {V F : Type}

def start (graphHash schemaHash : Identity) (graphRevision : UInt64) (sessionId : Identity)
    (generation : UInt64) : Connection V F where
  party _ := .new graphHash schemaHash graphRevision sessionId generation
  wire _ := []

def setParty (connection : Connection V F) (peer : Peer) (party : Party F) : Connection V F :=
  { connection with party := update connection.party peer party }

def setLink (connection : Connection V F) (peer : Peer) (link : ClientSessionLink F) :
    Connection V F :=
  connection.setParty peer { connection.party peer with link := link }

def transmit (connection : Connection V F) (peer : Peer) (frame : ClientSessionFrame V) :
    Connection V F :=
  { connection with
    wire := update connection.wire peer (connection.wire peer ++ [frame]) }

def step [DecidableEq F] (codec : Codec V F) (connection : Connection V F) :
    ConnectionEvent V → Option (Connection V F)
  | .send peer message =>
    (connection.party peer).send.map fun (sequence, party) =>
      (connection.transmit peer (party.link.dataFrame sequence message)).setParty peer party
  | .resend peer operationSequence message =>
    let link := (connection.party peer).link
    if operationSequence ≤ link.lastSendOperationSequence then
      some (connection.transmit peer (link.dataFrame operationSequence message))
    else none
  | .deliver peer position => do
    let frame ← (connection.wire peer.other)[position]?
    let party ← (connection.party peer).receive codec frame
    return connection.setParty peer party
  | .control peer => do
    let due ← ((connection.party peer).link.encodePendingControl codec).toOption
    return connection.transmit peer (← due).1
  | .controlTaken peer control =>
    some (connection.setLink peer ((connection.party peer).link.acknowledgeSentControl control))
  | .dataTaken peer ackThrough =>
    some (connection.setLink peer
      ((connection.party peer).link.acknowledgePiggybackedReceive ackThrough))
  | .disconnect peer =>
    some (connection.setParty peer { connection.party peer with connected := false })
  | .rebind peer generation =>
    ((connection.party peer).rebind (connection.party peer.other) generation).map
      (connection.setParty peer ·)

def Step [DecidableEq F] (codec : Codec V F) (connection next : Connection V F) : Prop :=
  ∃ event, connection.step codec event = some next

/-- What the parties have applied and what comes next. -/
structure InOrder [DecidableEq F] (codec : Codec V F) (connection : Connection V F) : Prop where
  /-- The operations 1, 2, 3, … up to the watermark, each once. -/
  sequences : ∀ peer, (connection.party peer).applied.map (·.operationSequence.toNat) =
    List.range' 1 (connection.party peer).link.appliedReceiveThrough.toNat
  monotone : ∀ next, Step codec connection next → ∀ peer,
    (connection.party peer).link.appliedReceiveThrough ≤
      (next.party peer).link.appliedReceiveThrough
  current : ∀ peer, ∀ application ∈ (connection.party peer).applied,
    application.frameGeneration = application.linkGeneration
  /-- The first frame of a generation is the next one for a peer that has applied none of it. -/
  first : ∀ peer operationSequence fingerprint,
    (connection.party peer).firstSent = some operationSequence →
    (connection.party peer.other).link.generation = (connection.party peer).link.generation →
    (connection.party peer.other).fresh = true →
    (connection.party peer.other).link.classifyReceive operationSequence fingerprint = .ok .next

end Connection

/-- What one party sends fits what the other one has applied. -/
structure Direction {V F : Type} (sender receiver : Party F) (wire : List (ClientSessionFrame V)) :
    Prop where
  older : ∀ frame ∈ wire, ∀ data, frame.dataOperation = some data →
    data.generation ≤ sender.link.generation
  bounded : ∀ frame ∈ wire, ∀ data, frame.dataOperation = some data →
    data.operationSequence.toNat < 2 ^ 64 - 1
  ahead : receiver.link.generation < sender.link.generation →
    receiver.connected = false ∧ sender.base = receiver.link.appliedReceiveThrough
  level : receiver.link.generation = sender.link.generation → receiver.fresh = true →
    sender.base = receiver.link.appliedReceiveThrough
  behind : sender.link.generation < receiver.link.generation → receiver.fresh = true
  first : (sender.firstSent.getD sender.link.nextSendOperationSequence).toNat =
    sender.base.toNat + 1
  sequences : receiver.applied.map (·.operationSequence.toNat) =
    List.range' 1 receiver.link.appliedReceiveThrough.toNat
  ceiling : receiver.link.appliedReceiveThrough.toNat < 2 ^ 64 - 1
  current : ∀ application ∈ receiver.applied,
    application.frameGeneration = application.linkGeneration

namespace Direction

variable {V F : Type} {sender receiver next : Party F} {wire : List (ClientSessionFrame V)}
  (direction : Direction sender receiver wire)
include direction

theorem of_sender_eq (generation_eq : next.link.generation = sender.link.generation)
    (send_eq : next.link.nextSendOperationSequence = sender.link.nextSendOperationSequence)
    (base_eq : next.base = sender.base) (first_eq : next.firstSent = sender.firstSent) :
    Direction next receiver wire := { direction with
  older := generation_eq ▸ direction.older
  ahead := by
    rw [generation_eq, base_eq]
    exact direction.ahead
  level := by
    rw [generation_eq, base_eq]
    exact direction.level
  behind := generation_eq ▸ direction.behind
  first := by
    rw [first_eq, send_eq, base_eq]
    exact direction.first }

theorem of_receiver_eq (generation_eq : next.link.generation = receiver.link.generation)
    (watermark_eq : next.link.appliedReceiveThrough = receiver.link.appliedReceiveThrough)
    (cut : receiver.connected = false → next.connected = false)
    (applied_eq : next.applied = receiver.applied) (fresh_eq : next.fresh = receiver.fresh) :
    Direction sender next wire := { direction with
  ahead newer := by
    rw [generation_eq] at newer
    rcases direction.ahead newer with ⟨disconnected, base_eq⟩
    exact ⟨cut disconnected, base_eq.trans watermark_eq.symm⟩
  level := by
    rw [generation_eq, watermark_eq, fresh_eq]
    exact direction.level
  behind := by
    rw [generation_eq, fresh_eq]
    exact direction.behind
  sequences := by
    rw [applied_eq, watermark_eq]
    exact direction.sequences
  ceiling := watermark_eq ▸ direction.ceiling
  current := applied_eq ▸ direction.current }

theorem transmit {frame : ClientSessionFrame V}
    (fits : ∀ data, frame.dataOperation = some data →
      data.generation ≤ sender.link.generation ∧ data.operationSequence.toNat < 2 ^ 64 - 1) :
    Direction sender receiver (wire ++ [frame]) := { direction with
  older := forall_mem_append.mpr ⟨direction.older, forall_mem_singleton.mpr
    fun data carried => (fits data carried).1⟩
  bounded := forall_mem_append.mpr ⟨direction.bounded, forall_mem_singleton.mpr
    fun data carried => (fits data carried).2⟩ }

theorem allocate {nextSend : UInt64} :
    Direction { sender with
      link := { sender.link with nextSendOperationSequence := nextSend }
      firstSent := sender.firstSent.or (some sender.link.nextSendOperationSequence) }
      receiver wire := { direction with
  first := by
    have first := direction.first
    cases sent : sender.firstSent with
    | none | some operationSequence =>
      rw [sent] at first
      exact first }

theorem rebind_sender {generation nextSend : UInt64} {ackPending : Bool}
    (newer : sender.link.generation < generation) (allowed : receiver.mayRebind generation)
    (counted : checkedIncrement receiver.link.appliedReceiveThrough = some nextSend) :
    Direction { sender with
      link := { sender.link with
        generation := generation
        nextSendOperationSequence := nextSend
        peerAcknowledgedThrough := receiver.link.appliedReceiveThrough
        ackPending := ackPending
        resyncExpectedNext := none }
      connected := true
      fresh := true
      base := receiver.link.appliedReceiveThrough
      firstSent := none } receiver wire := { direction with
  older frame member data carried :=
    UInt64.le_trans (direction.older frame member data carried) (UInt64.le_of_lt newer)
  ahead less := by
    rcases allowed with same | ⟨_, disconnected⟩
    · exact absurd (same ▸ less) (UInt64.lt_irrefl _)
    · exact ⟨disconnected, rfl⟩
  level _ _ := rfl
  behind less := by
    rcases allowed with same | ⟨greater, _⟩
    · exact absurd (same ▸ less) (UInt64.lt_irrefl _)
    · exact absurd (UInt64.lt_trans less greater) (UInt64.lt_irrefl _)
  first := toNat_of_checkedIncrement counted }

theorem rebind_receiver {generation : UInt64} (newer : receiver.link.generation < generation)
    (allowed : sender.mayRebind generation) (generation_eq : next.link.generation = generation)
    (watermark_eq : next.link.appliedReceiveThrough = receiver.link.appliedReceiveThrough)
    (applied_eq : next.applied = receiver.applied) (fresh : next.fresh = true) :
    Direction sender next wire := { direction with
  ahead less := by
    rw [generation_eq] at less
    rcases allowed with same | ⟨greater, _⟩
    · exact absurd (same ▸ less) (UInt64.lt_irrefl _)
    · exact absurd (UInt64.lt_trans less greater) (UInt64.lt_irrefl _)
  level same _ := by
    rw [generation_eq] at same
    rw [watermark_eq]
    exact (direction.ahead (same ▸ newer)).2
  behind _ := fresh
  sequences := by
    rw [applied_eq, watermark_eq]
    exact direction.sequences
  ceiling := watermark_eq ▸ direction.ceiling
  current := applied_eq ▸ direction.current }

/-- The watermark is never saturated, so the expected operation is its successor. -/
theorem toNat_expected :
    (saturatingIncrement receiver.link.appliedReceiveThrough).toNat =
      receiver.link.appliedReceiveThrough.toNat + 1 := by
  have bound := direction.ceiling
  rw [toNat_saturatingIncrement]
  omega

theorem apply {frame : ClientSessionFrame V} {data : DataOperation V} {fingerprint : F}
    (member : frame ∈ wire) (carried : frame.dataOperation = some data)
    (connected : receiver.connected = true) (same : data.generation = receiver.link.generation)
    (expected : data.operationSequence = saturatingIncrement receiver.link.appliedReceiveThrough) :
    Direction sender { receiver with
      link := receiver.link.applied data.operationSequence fingerprint
      applied := receiver.applied ++
        [⟨data.operationSequence, data.generation, receiver.link.generation⟩]
      fresh := false } wire := { direction with
  ahead less := by
    have disconnected := (direction.ahead less).1
    rw [connected] at disconnected
    cases disconnected
  level _ unapplied := nomatch unapplied
  behind less := by
    -- the frame is not newer than its sender
    have old := direction.older frame member data carried
    rw [same] at old
    exact absurd less (UInt64.not_lt.mpr old)
  sequences := by
    have operation_eq : data.operationSequence.toNat =
        receiver.link.appliedReceiveThrough.toNat + 1 := by
      rw [expected, direction.toNat_expected]
    change _ = List.range' 1 data.operationSequence.toNat
    rw [map_append, direction.sequences, operation_eq, range'_concat]
    simp [operation_eq, Nat.add_comm]
  ceiling := direction.bounded frame member data carried
  current := forall_mem_append.mpr ⟨direction.current, forall_mem_singleton.mpr same⟩ }

end Direction

namespace Connection

variable {V F : Type}

/-- Both directions fit. -/
def Joined (connection : Connection V F) : Prop :=
  ∀ peer, Direction (connection.party peer) (connection.party peer.other) (connection.wire peer)

/-- Both directions still fit, and no watermark went down. -/
def Follows (connection next : Connection V F) : Prop :=
  next.Joined ∧ ∀ peer, (connection.party peer).link.appliedReceiveThrough ≤
    (next.party peer).link.appliedReceiveThrough

theorem other_other (peer : Peer) : peer.other.other = peer := by
  cases peer <;> rfl

theorem other_ne (peer : Peer) : peer.other ≠ peer := by
  cases peer <;> simp [Peer.other]

section Updates

variable {connection : Connection V F} {peer : Peer} {party : Party F}

/-- A change of one party is seen as a change of a sender and as a change of a receiver. -/
theorem follows_setParty
    (sending : Direction party (connection.party peer.other) (connection.wire peer))
    (receiving : Direction (connection.party peer.other) party (connection.wire peer.other))
    (grown : (connection.party peer).link.appliedReceiveThrough ≤
      party.link.appliedReceiveThrough) :
    connection.Follows (connection.setParty peer party) := by
  unfold Follows Joined setParty
  dsimp only
  refine ⟨fun given => ?_, fun given => ?_⟩
  · by_cases same : given = peer
    · subst same
      rw [update_self, update_of_ne (other_ne given)]
      exact sending
    · have other_eq : given = peer.other := by
        cases given <;> cases peer <;> simp_all [Peer.other]
      subst other_eq
      rw [update_of_ne same, other_other, update_self]
      exact receiving
  · by_cases same : given = peer
    · subst same
      rw [update_self]
      exact grown
    · rw [update_of_ne same]
      exact UInt64.le_refl _

theorem follows_transmit {frame : ClientSessionFrame V} (joined : connection.Joined)
    (fits : ∀ data, frame.dataOperation = some data →
      data.generation ≤ (connection.party peer).link.generation ∧
        data.operationSequence.toNat < 2 ^ 64 - 1) :
    connection.Follows (connection.transmit peer frame) := by
  refine ⟨fun given => ?_, fun _ => UInt64.le_refl _⟩
  unfold transmit
  dsimp only
  by_cases same : given = peer
  · subst same
    rw [update_self]
    exact (joined given).transmit fits
  · rw [update_of_ne same]
    exact joined given

end Updates

theorem joined_start {graphHash schemaHash sessionId : Identity} {graphRevision generation : UInt64}
    : (start graphHash schemaHash graphRevision sessionId generation : Connection V F).Joined := by
  intro peer
  constructor
  case ahead => exact fun less => absurd less (UInt64.lt_irrefl _)
  case ceiling => exact Nat.zero_lt_succ _
  all_goals simp [start, Party.new, ClientSessionLink.new]

section Steps

variable [DecidableEq F] {codec : Codec V F} {connection next : Connection V F} {peer : Peer}

theorem receive_cases {party after : Party F} {frame : ClientSessionFrame V}
    (received : party.receive codec frame = some after) :
    (∃ data fingerprint acknowledged, frame.dataOperation = some data ∧ party.connected = true ∧
      data.generation = party.link.generation ∧
      data.operationSequence = saturatingIncrement party.link.appliedReceiveThrough ∧
      after = { party with
        link := { party.link with peerAcknowledgedThrough := acknowledged }.applied
          data.operationSequence fingerprint
        applied := party.applied ++
          [⟨data.operationSequence, data.generation, party.link.generation⟩]
        fresh := false }) ∨
    (∃ link, after = { party with link := link } ∧ link.generation = party.link.generation ∧
      link.appliedReceiveThrough = party.link.appliedReceiveThrough ∧
      link.nextSendOperationSequence = party.link.nextSendOperationSequence) := by
  unfold Party.receive at received
  simp only [Option.bind_eq_bind, Option.bind_eq_some_iff, Option.guard_eq_some',
    toOption_eq_some_iff] at received
  rcases received with ⟨_, connected, _, identified, received⟩
  cases frame with
  | data =>
    simp only [Option.bind_eq_some_iff, toOption_eq_some_iff] at received
    obtain ⟨fingerprint, _, ⟨acknowledged, _⟩, accepted, ⟨_, link⟩, done, result⟩ := received
    obtain ⟨_, _, rfl⟩ := acceptPeerAck_eq_ok_iff.mp accepted
    rcases receiveData_cases done with
      ⟨rfl, expected, rfl⟩ | ⟨rfl, rfl⟩ | ⟨_, rfl, _, rfl⟩
    · cases result
      exact .inl ⟨_, fingerprint, acknowledged, rfl, connected,
        generation_of_decodeIdentity identified rfl, expected, rfl⟩
    · cases result
      exact .inr ⟨_, rfl, rfl, rfl, rfl⟩
    · cases result
      exact .inr ⟨_, rfl, rfl, rfl, rfl⟩
  | ack =>
    simp only [Option.bind_eq_some_iff, toOption_eq_some_iff] at received
    obtain ⟨⟨acknowledged, _⟩, accepted, result⟩ := received
    obtain ⟨_, _, rfl⟩ := acceptPeerAck_eq_ok_iff.mp accepted
    cases result
    exact .inr ⟨_, rfl, rfl, rfl, rfl⟩
  | resync =>
    cases received
    exact .inr ⟨_, rfl, rfl, rfl, rfl⟩

variable (joined : connection.Joined)
include joined

omit [DecidableEq F] in
theorem Joined.receiving (peer : Peer) :
    Direction (connection.party peer.other) (connection.party peer)
      (connection.wire peer.other) := by
  have receiving := joined peer.other
  rwa [other_other] at receiving

theorem Joined.send
    (sent : connection.step codec (.send peer message) = some next) : connection.Follows next := by
  rcases Option.map_eq_some_iff.mp sent with ⟨⟨_, party⟩, allocated, rfl⟩
  rcases Option.map_eq_some_iff.mp allocated with ⟨⟨_, link⟩, done, result⟩
  cases result
  rw [toOption_eq_some_iff] at done
  rcases allocateOperationSequence_eq_ok_iff.mp done with
    ⟨rfl, nextSend, counted, rfl⟩
  have bound : (connection.party peer).link.nextSendOperationSequence.toNat < 2 ^ 64 - 1 := by
    have counted_toNat := toNat_of_checkedIncrement counted
    have largest := nextSend.toNat_lt
    omega
  have transmitted : (connection.transmit peer ((connection.party peer).link.dataFrame
      (connection.party peer).link.nextSendOperationSequence message)).Joined :=
    (follows_transmit joined (by rintro _ ⟨⟩; exact ⟨UInt64.le_refl _, bound⟩)).1
  exact follows_setParty (transmitted peer).allocate
    ((transmitted.receiving peer).of_receiver_eq rfl rfl id rfl rfl) (UInt64.le_refl _)

theorem Joined.resend
    (sent : connection.step codec (.resend peer operationSequence message) = some next) :
    connection.Follows next := by
  change (if _ then _ else _) = _ at sent
  split at sent
  · next known =>
      cases sent
      apply follows_transmit joined
      rintro _ ⟨⟩
      refine ⟨UInt64.le_refl _, ?_⟩
      change operationSequence.toNat < _
      have below := UInt64.le_iff_toNat_le.mp known
      unfold lastSendOperationSequence at below
      rw [toNat_saturatingSub] at below
      have largest := (connection.party peer).link.nextSendOperationSequence.toNat_lt
      have one_toNat : (1 : UInt64).toNat = 1 := rfl
      omega
  · cases sent

theorem Joined.deliver {position : Nat}
    (done : connection.step codec (.deliver peer position) = some next) :
    connection.Follows next := by
  rcases Option.bind_eq_some_iff.mp done with ⟨frame, located, rest⟩
  rcases Option.bind_eq_some_iff.mp rest with ⟨_, received, result⟩
  cases result
  have member : frame ∈ connection.wire peer.other := mem_of_getElem? located
  have receiving := joined.receiving peer
  rcases receive_cases received with
    ⟨_, _, acknowledged, carried, connected, current, expected, rfl⟩ |
    ⟨_, rfl, generation_eq, watermark_eq, send_eq⟩
  · have accepted : Direction _ { connection.party peer with
        link := { (connection.party peer).link with peerAcknowledgedThrough := acknowledged } } _ :=
      receiving.of_receiver_eq rfl rfl id rfl rfl
    refine follows_setParty ((joined peer).of_sender_eq rfl rfl rfl rfl)
      (accepted.apply member carried connected current expected) ?_
    exact UInt64.le_trans le_saturatingIncrement (expected ▸ UInt64.le_refl _)
  · exact follows_setParty ((joined peer).of_sender_eq generation_eq send_eq rfl rfl)
      (receiving.of_receiver_eq generation_eq watermark_eq id rfl rfl)
      (watermark_eq ▸ UInt64.le_refl _)

theorem Joined.control
    (sent : connection.step codec (.control peer) = some next) : connection.Follows next := by
  simp only [Connection.step, Option.bind_eq_bind, Option.bind_eq_some_iff,
    toOption_eq_some_iff] at sent
  obtain ⟨_, due, ⟨frame, _⟩, rfl, result⟩ := sent
  cases result
  apply follows_transmit joined
  rw [dataOperation_of_encodePendingControl due]
  rintro _ ⟨⟩

omit [DecidableEq F] in
theorem Joined.acknowledge (control : SentControl) : connection.Follows (connection.setLink peer
    ((connection.party peer).link.acknowledgeSentControl control)) := by
  obtain ⟨_, _, same⟩ := acknowledgeSentControl_cases
  rw [same]
  exact follows_setParty ((joined peer).of_sender_eq rfl rfl rfl rfl)
    ((joined.receiving peer).of_receiver_eq rfl rfl id rfl rfl) (UInt64.le_refl _)

theorem Joined.rebind {generation : UInt64}
    (done : connection.step codec (.rebind peer generation) = some next) :
    connection.Follows next := by
  rcases Option.map_eq_some_iff.mp done with ⟨_, bound, rfl⟩
  unfold Party.rebind at bound
  simp only [Option.bind_eq_bind, Option.bind_eq_some_iff, Option.guard_eq_some',
    toOption_eq_some_iff] at bound
  rcases bound with ⟨_, allowed, _, rebound, result⟩
  cases result
  rcases rebind_eq_ok_iff.mp rebound with ⟨newer, _, counted, rfl⟩
  exact follows_setParty ((joined peer).rebind_sender newer allowed counted)
    ((joined.receiving peer).rebind_receiver newer allowed rfl rfl rfl rfl) (UInt64.le_refl _)

theorem Joined.step (stepped : Step codec connection next) : connection.Follows next := by
  rcases stepped with ⟨event, done⟩
  cases event with
  | send => exact joined.send done
  | resend => exact joined.resend done
  | deliver => exact joined.deliver done
  | control => exact joined.control done
  | controlTaken _ control =>
    cases done
    exact joined.acknowledge control
  | dataTaken _ ackThrough =>
    cases done
    exact joined.acknowledge (.ack ackThrough)
  | disconnect peer =>
    cases done
    exact follows_setParty ((joined peer).of_sender_eq rfl rfl rfl rfl)
      ((joined.receiving peer).of_receiver_eq rfl rfl (fun _ => rfl) rfl rfl) (UInt64.le_refl _)
  | rebind => exact joined.rebind done

theorem Joined.inOrder : InOrder codec connection where
  sequences peer := (joined.receiving peer).sequences
  monotone _ stepped := (joined.step stepped).2
  current peer := (joined.receiving peer).current
  first peer operationSequence fingerprint sent level fresh := by
    have direction := joined peer
    have base_eq := direction.level level fresh
    have first_eq := direction.first
    rw [sent, Option.getD_some, base_eq] at first_eq
    rw [classifyReceive_eq_next_iff]
    apply UInt64.toNat_inj.mp
    rw [first_eq, direction.toNat_expected]

end Steps

/-- Both parties apply the operations 1, 2, 3, … once and in order, over any network and
through any number of reconnects. -/
theorem inOrder_of_run [DecidableEq F] {codec : Codec V F} {connection : Connection V F}
    {graphHash schemaHash sessionId : Identity} {graphRevision generation : UInt64}
    (run : Relation.ReflTransGen (Step codec)
      (start graphHash schemaHash graphRevision sessionId generation) connection) :
    InOrder codec connection := by
  have joined : connection.Joined := by
    induction run with
    | refl => exact joined_start
    | tail _ stepped held => exact (held.step stepped).1
  exact joined.inOrder

/-- The client's frame is applied and acknowledged, the connection is lost, and both parties go
on in the second generation, where the session sends first. -/
def resumed : List (ConnectionEvent Unit) :=
  let message : DistributedMessage Unit := ⟨.client, .session, .event 1 1 none⟩
  [.send .client message, .deliver .session 0, .control .session, .controlTaken .session (.ack 1),
    .deliver .client 0, .disconnect .client, .rebind .session 2, .rebind .client 2,
    .send .session message, .deliver .client 1, .send .client message, .deliver .session 1]

def uniformCodec : Codec Unit Unit where
  encodedLength _ := .ok 1
  semanticFingerprint _ := .ok ()

theorem inOrder_resumed : ∃ connection,
    resumed.foldlM (step uniformCodec) (start 0 0 0 0 1) = some connection ∧
    (connection.party .session).link.appliedReceiveThrough = 2 ∧
    (connection.party .session).link.generation = 2 ∧ InOrder uniformCodec connection := by
  have finished : (resumed.foldlM (step uniformCodec) (start 0 0 0 0 1)).map (fun last =>
      ((last.party .session).link.appliedReceiveThrough,
        (last.party .session).link.generation)) = some (2, 2) := rfl
  rcases Option.map_eq_some_iff.mp finished with ⟨connection, run, result⟩
  exact ⟨connection, run, congrArg Prod.fst result, congrArg Prod.snd result,
    inOrder_of_run (reflTransGen_of_foldlM run)⟩

end Connection

end BoonCircuit.Distributed
