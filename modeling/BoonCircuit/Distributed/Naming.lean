import BoonCircuit.Distributed.Queue
import Mathlib.Data.List.Nodup

/-!
# What an operation sequence names

A sender with its queue and a receiver, joined by a network that may drop, repeat,
delay and reorder frames.  Every frame ever put on the wire is kept and can arrive at
any time.  An operation sequence of a generation names one message as long as no
message is coalesced into an operation that is already on the wire.
-/

namespace BoonCircuit.Distributed

open Option hiding map_map
open Lib Checks ClientSessionLink List

structure Exchange (V F : Type) where
  link : ClientSessionLink F
  queue : OutboundClientSessionQueue V
  receiver : ClientSessionLink F
  /-- Every data frame ever put on the wire. -/
  wire : List (ClientSessionFrame V)
  /-- Every resync that the receiver has sent in this generation. -/
  resyncs : List UInt64

inductive ExchangeEvent (V F : Type) where
  | push (messages : List (DistributedMessage V))
  | transmit
  | markSent (operationSequence : UInt64)
  | acknowledge (ackThrough : UInt64)
  | resend (expectedNext : UInt64)
  /-- The sender receives an operation of its peer. -/
  | receive (operationSequence : UInt64) (fingerprint : F)
  /-- A frame of the wire arrives, possibly not for the first time. -/
  | deliver (position : Nat)
  | requestResync
  /-- Both parties go on in a new generation. -/
  | reconnect (generation peerAppliedThrough : UInt64)

namespace OutboundClientSessionQueue

variable {V : Type}

/-- The operation whose message a new one would take the place of. -/
def coalescingTarget (messages : List (QueuedClientSessionMessage V))
    (message : DistributedMessage V) : Option UInt64 :=
  ((messages.filter (·.awaits message)).map (·.operationSequence)).getLast?

end OutboundClientSessionQueue

namespace Exchange

open OutboundClientSessionQueue

variable {V F : Type} {data : DataOperation V}

def start (graphHash schemaHash : Identity) (graphRevision : UInt64) (sessionId : Identity)
    (generation : UInt64) (limits : ClientSessionQueueLimits) : Exchange V F where
  link := .new graphHash schemaHash graphRevision sessionId generation
  queue := { messages := [], limits := limits }
  receiver := .new graphHash schemaHash graphRevision sessionId generation
  wire := []
  resyncs := []

variable (exchange : Exchange V F)

/-- The operation is on the wire in the sender's generation. -/
def OnWire (operationSequence : UInt64) : Prop :=
  ∃ frame ∈ exchange.wire, ∃ data, frame.dataOperation = some data ∧
    data.generation = exchange.link.generation ∧ data.operationSequence = operationSequence

def push (codec : Codec V F) (exchange : Exchange V F) (messages : List (DistributedMessage V)) :
    Option (Exchange V F) :=
  (exchange.queue.push codec exchange.link messages).toOption.map fun pushed =>
    { exchange with queue := pushed.1, link := pushed.2 }

def transmit (codec : Codec V F) (exchange : Exchange V F) : Option (Exchange V F) :=
  match exchange.queue.encodeNext codec exchange.link with
  | .ok (some data) => some { exchange with wire := exchange.wire ++ [data.frame] }
  | _ => none

def markSent (exchange : Exchange V F) (operationSequence : UInt64) : Option (Exchange V F) :=
  (exchange.queue.markSent operationSequence exchange.link.generation).map
    ({ exchange with queue := · })

def acknowledge (ackThrough : UInt64) : Option (Exchange V F) :=
  (exchange.link.acceptPeerAck ackThrough).toOption.map fun accepted =>
    { exchange with
      link := accepted.2
      queue := exchange.queue.acknowledgeThrough accepted.1 }

def resend (expectedNext : UInt64) : Option (Exchange V F) :=
  if expectedNext ∈ exchange.resyncs then
    (exchange.queue.resendFrom expectedNext
      exchange.link.lastSendOperationSequence).toOption.map ({ exchange with queue := · })
  else none

def receive [DecidableEq F] (exchange : Exchange V F) (operationSequence : UInt64)
    (fingerprint : F) : Option (Exchange V F) :=
  (exchange.link.receiveData operationSequence fingerprint).toOption.map fun received =>
    { exchange with link := received.2 }

def deliver [DecidableEq F] (codec : Codec V F) (exchange : Exchange V F) (position : Nat) :
    Option (Exchange V F) := do
  let frame ← exchange.wire[position]?
  (exchange.receiver.decodeIdentity frame).toOption
  let data ← frame.dataOperation
  let fingerprint ← (codec.semanticFingerprint data.message).toOption
  let received ← (exchange.receiver.receiveData data.operationSequence fingerprint).toOption
  return { exchange with receiver := received.2 }

def requestResync : Option (Exchange V F) :=
  exchange.receiver.resyncExpectedNext.map fun expectedNext =>
    { exchange with resyncs := exchange.resyncs ++ [expectedNext] }

def reconnect (generation peerAppliedThrough : UInt64) : Option (Exchange V F) := do
  let link ← (exchange.link.rebind generation exchange.receiver.appliedReceiveThrough).toOption
  let receiver ← (exchange.receiver.rebind generation peerAppliedThrough).toOption
  return { exchange with
    link := link
    queue := exchange.queue.clear
    receiver := receiver
    resyncs := [] }

def step [DecidableEq F] (codec : Codec V F) (exchange : Exchange V F) :
    ExchangeEvent V F → Option (Exchange V F)
  | .push messages => exchange.push codec messages
  | .transmit => exchange.transmit codec
  | .markSent operationSequence => exchange.markSent operationSequence
  | .acknowledge ackThrough => exchange.acknowledge ackThrough
  | .resend expectedNext => exchange.resend expectedNext
  | .receive operationSequence fingerprint => exchange.receive operationSequence fingerprint
  | .deliver position => exchange.deliver codec position
  | .requestResync => exchange.requestResync
  | .reconnect generation peerAppliedThrough => exchange.reconnect generation peerAppliedThrough

/-- No pushed message takes the place of one whose operation is on the wire. -/
def Unspoken : ExchangeEvent V F → Prop
  | .push messages => ∀ message ∈ messages, ∀ operationSequence,
      coalescingTarget exchange.queue.messages message = some operationSequence →
      ¬ exchange.OnWire operationSequence
  | _ => True

/-- A step that coalesces only into operations that are not on the wire. -/
def UnspokenStep [DecidableEq F] (codec : Codec V F) (exchange next : Exchange V F) : Prop :=
  ∃ event, exchange.Unspoken event ∧ exchange.step codec event = some next

/-- Two data frames of one generation and operation carry one message, and the receiver
never sees a frame that contradicts one it has accepted. -/
structure Unambiguous [DecidableEq F] (codec : Codec V F) (exchange : Exchange V F) : Prop where
  message_eq : ∀ first ∈ exchange.wire, ∀ second ∈ exchange.wire, ∀ firstData secondData,
    first.dataOperation = some firstData → second.dataOperation = some secondData →
    firstData.generation = secondData.generation →
    firstData.operationSequence = secondData.operationSequence →
    firstData.message = secondData.message
  not_refused : ∀ frame ∈ exchange.wire, ∀ data fingerprint,
    frame.dataOperation = some data → data.generation = exchange.receiver.generation →
    codec.semanticFingerprint data.message = .ok fingerprint →
    exchange.receiver.classifyReceive data.operationSequence fingerprint ≠
      .error .invalidTransportFrame

/-- The data operations ever put on the wire. -/
def spoken : List (DataOperation V) :=
  exchange.wire.filterMap (·.dataOperation)

theorem mem_spoken_iff {exchange : Exchange V F} :
    data ∈ exchange.spoken ↔ ∃ frame ∈ exchange.wire, frame.dataOperation = some data :=
  mem_filterMap

/-- What a queued message is apart from its mark. -/
def entry (queued : QueuedClientSessionMessage V) : UInt64 × DistributedMessage V :=
  (queued.operationSequence, queued.message)

/-- The queue and the operations on the wire agree.  The base is the last operation that the
receiver had applied when the generation began. -/
structure Sending (base : Nat) (spoken : List (DataOperation V))
    (messages : List (QueuedClientSessionMessage V)) (link : ClientSessionLink F) : Prop where
  increasing : (messages.map (·.operationSequence.toNat)).Pairwise (· < ·)
  above : ∀ queued ∈ messages, base < queued.operationSequence.toNat
  below : ∀ queued ∈ messages, queued.operationSequence.toNat < link.nextSendOperationSequence.toNat
  floor : base < link.nextSendOperationSequence.toNat
  older : ∀ data ∈ spoken, data.generation ≤ link.generation
  recent : ∀ data ∈ spoken, data.generation = link.generation →
    base < data.operationSequence.toNat ∧
      data.operationSequence.toNat < link.nextSendOperationSequence.toNat
  agrees : ∀ data ∈ spoken, data.generation = link.generation → ∀ queued ∈ messages,
    queued.operationSequence = data.operationSequence → queued.message = data.message
  message_eq : ∀ first ∈ spoken, ∀ second ∈ spoken, first.generation = second.generation →
    first.operationSequence = second.operationSequence → first.message = second.message

namespace Sending

variable {base : Nat} {spoken : List (DataOperation V)}
  {messages after : List (QueuedClientSessionMessage V)} {link linkAfter : ClientSessionLink F}

theorem of_sublist (sending : Sending base spoken messages link)
    (fewer : (after.map entry).Sublist (messages.map entry))
    (next_eq : linkAfter.nextSendOperationSequence = link.nextSendOperationSequence)
    (generation_eq : linkAfter.generation = link.generation) :
    Sending base spoken after linkAfter := by
  have origin : ∀ queued ∈ after, ∃ source ∈ messages,
      source.operationSequence = queued.operationSequence ∧ source.message = queued.message := by
    intro queued member
    rcases mem_map.mp (fewer.subset (mem_map_of_mem member)) with ⟨source, held, same⟩
    exact ⟨source, held, congrArg Prod.fst same, congrArg Prod.snd same⟩
  constructor
  · have ordered := sending.increasing
    have view : ∀ items : List (QueuedClientSessionMessage V),
        items.map (·.operationSequence.toNat) = (items.map entry).map (·.1.toNat) := by
      intro items
      rw [map_map]
      rfl
    rw [view] at ordered ⊢
    exact ordered.sublist (fewer.map _)
  · intro queued member
    rcases origin queued member with ⟨source, held, same, _⟩
    exact same ▸ sending.above source held
  · intro queued member
    rcases origin queued member with ⟨source, held, same, _⟩
    rw [next_eq]
    exact same ▸ sending.below source held
  · exact next_eq ▸ sending.floor
  · exact generation_eq ▸ sending.older
  · rw [next_eq, generation_eq]
    exact sending.recent
  · intro data member current queued held same
    rcases origin queued held with ⟨source, sourceHeld, sameOperation, sameMessage⟩
    rw [← sameMessage]
    exact sending.agrees data member (generation_eq ▸ current) source sourceHeld
      (sameOperation.trans same)
  · exact sending.message_eq

theorem eq_of_operationSequence_eq (sending : Sending base spoken messages link)
    {first second : QueuedClientSessionMessage V} (firstHeld : first ∈ messages)
    (secondHeld : second ∈ messages)
    (same : first.operationSequence = second.operationSequence) : first = second := by
  have distinct : (messages.map (·.operationSequence.toNat)).Nodup :=
    sending.increasing.imp Nat.ne_of_lt
  exact inj_on_of_nodup_map distinct firstHeld secondHeld (congrArg UInt64.toNat same)

variable {queued : QueuedClientSessionMessage V} {message : DistributedMessage V}

theorem transmit (sending : Sending base spoken messages link) (held : queued ∈ messages) :
    Sending base
      (spoken ++ [⟨link.generation, queued.operationSequence, queued.message⟩]) messages link := by
  refine { sending with older := ?_, recent := ?_, agrees := ?_, message_eq := ?_ }
  · exact forall_mem_append.mpr ⟨sending.older, forall_mem_singleton.mpr (UInt64.le_refl _)⟩
  · refine forall_mem_append.mpr ⟨sending.recent, forall_mem_singleton.mpr fun _ => ?_⟩
    exact ⟨sending.above queued held, sending.below queued held⟩
  · refine forall_mem_append.mpr ⟨sending.agrees, forall_mem_singleton.mpr ?_⟩
    intro _ other otherHeld same
    rw [sending.eq_of_operationSequence_eq otherHeld held same]
  · intro first firstMember second secondMember sameGeneration sameOperation
    rcases mem_append.mp firstMember with firstOld | firstNew <;>
      rcases mem_append.mp secondMember with secondOld | secondNew
    · exact sending.message_eq first firstOld second secondOld sameGeneration sameOperation
    · rw [mem_singleton.mp secondNew] at sameGeneration sameOperation ⊢
      exact (sending.agrees first firstOld sameGeneration queued held sameOperation.symm).symm
    · rw [mem_singleton.mp firstNew] at sameGeneration sameOperation ⊢
      exact sending.agrees second secondOld sameGeneration.symm queued held sameOperation
    · rw [mem_singleton.mp firstNew, mem_singleton.mp secondNew]

theorem replace {before rest : List (QueuedClientSessionMessage V)}
    (sending : Sending base spoken (before ++ queued :: rest) link)
    (silent : ∀ data ∈ spoken, data.generation = link.generation →
      data.operationSequence ≠ queued.operationSequence) :
    Sending base spoken (before ++ { queued with message := message } :: rest) link := by
  obtain ⟨increasing, above, below, floor, older, recent, agrees, message_eq⟩ := sending
  rw [forall_mem_append, forall_mem_cons] at above below
  refine ⟨?_, ?_, ?_, floor, older, recent, fun data member current => ?_, message_eq⟩
  · rw [map_append] at increasing ⊢
    exact increasing
  · exact forall_mem_append.mpr ⟨above.1, forall_mem_cons.mpr above.2⟩
  · exact forall_mem_append.mpr ⟨below.1, forall_mem_cons.mpr below.2⟩
  · have same := agrees data member current
    rw [forall_mem_append, forall_mem_cons] at same ⊢
    exact ⟨same.1, fun named => absurd named.symm (silent data member current), same.2.2⟩

theorem append (sending : Sending base spoken messages link)
    {next : UInt64} (counted : checkedIncrement link.nextSendOperationSequence = some next) :
    Sending base spoken (messages ++ [⟨link.nextSendOperationSequence, message, none⟩])
      { link with nextSendOperationSequence := next } := by
  have next_toNat := toNat_of_checkedIncrement counted
  constructor
  · rw [map_append, pairwise_append]
    refine ⟨sending.increasing, pairwise_singleton _ _, ?_⟩
    intro earlier member last lastMember
    rcases mem_map.mp member with ⟨queued, held, rfl⟩
    rw [map_singleton, mem_singleton] at lastMember
    rw [lastMember]
    exact sending.below queued held
  · exact forall_mem_append.mpr ⟨sending.above, forall_mem_singleton.mpr sending.floor⟩
  · refine forall_mem_append.mpr ⟨fun queued held => ?_, forall_mem_singleton.mpr ?_⟩
    · exact (sending.below queued held).trans (by dsimp only; omega)
    · dsimp only
      omega
  · have floor := sending.floor
    dsimp only
    omega
  · exact sending.older
  · intro data member current
    have bounds := sending.recent data member current
    dsimp only
    omega
  · intro data member current queued queuedHeld same
    rcases mem_append.mp queuedHeld with old | new
    · exact sending.agrees data member current queued old same
    · -- the new operation is beyond everything on the wire
      have bounds := sending.recent data member current
      rw [mem_singleton.mp new] at same
      have equal := congrArg UInt64.toNat same
      dsimp only at equal
      omega
  · exact sending.message_eq

end Sending

variable {queued : QueuedClientSessionMessage V} {message other : DistributedMessage V}
  {before rest : List (QueuedClientSessionMessage V)} {operationSequence generation : UInt64}
  {fingerprint : F}

theorem awaits_replace (awaited : queued.awaits message = true) :
    ({ queued with message := message } : QueuedClientSessionMessage V).awaits other =
      queued.awaits other := by
  unfold QueuedClientSessionMessage.awaits at awaited ⊢
  rw [Bool.and_eq_true, DistributedMessage.replacesPending_iff] at awaited
  have same_key := awaited.2.2
  congr 1
  rw [Bool.eq_iff_iff, DistributedMessage.replacesPending_iff,
    DistributedMessage.replacesPending_iff, same_key]

theorem coalescingTarget_replace (awaited : queued.awaits message = true) :
    coalescingTarget (before ++ { queued with message := message } :: rest) other =
      coalescingTarget (before ++ queued :: rest) other := by
  unfold coalescingTarget
  simp only [filter_append, filter_cons, awaits_replace awaited]
  split <;> simp

theorem coalescingTarget_eq_some (awaited : queued.awaits message = true)
    (last : ∀ later ∈ rest, later.awaits message = false) :
    coalescingTarget (before ++ queued :: rest) message = some queued.operationSequence := by
  have none_later : rest.filter (·.awaits message) = [] :=
    filter_eq_nil_iff.mpr fun later member => by simp [last later member]
  unfold coalescingTarget
  simp [awaited, none_later]

theorem coalescingTarget_append {messages : List (QueuedClientSessionMessage V)}
    (target : coalescingTarget (messages ++ [queued]) message = some operationSequence) :
    operationSequence = queued.operationSequence ∨
      coalescingTarget messages message = some operationSequence := by
  unfold coalescingTarget at target ⊢
  rw [filter_append, filter_singleton] at target
  cases awaited : queued.awaits message with
  | true =>
    rw [awaited, cond_true, map_append, map_singleton, getLast?_concat] at target
    exact .inl (some.inj target).symm
  | false =>
    rw [awaited, cond_false, append_nil] at target
    exact .inr target

/-- Where the listed messages would coalesce, nothing is on the wire. -/
def Silent (spoken : List (DataOperation V)) (generation : UInt64)
    (pushed : List (DistributedMessage V))
    (messages : List (QueuedClientSessionMessage V)) : Prop :=
  ∀ message ∈ pushed, ∀ operationSequence,
    coalescingTarget messages message = some operationSequence →
    ∀ data ∈ spoken, data.generation = generation → data.operationSequence ≠ operationSequence

section Pushing

variable {base : Nat} {spoken : List (DataOperation V)} {pushed : List (DistributedMessage V)}
  {link linkAfter : ClientSessionLink F}

theorem enqueue_keeps_sending {messages after : List (QueuedClientSessionMessage V)}
    (member : message ∈ pushed)
    (held : Sending base spoken messages link ∧ link.generation = generation ∧
      Silent spoken generation pushed messages)
    (enqueued : enqueue (messages, link) message = .ok (after, linkAfter)) :
    Sending base spoken after linkAfter ∧ linkAfter.generation = generation ∧
      Silent spoken generation pushed after := by
  rcases held with ⟨sending, rfl, silent⟩
  rcases enqueue_cases enqueued with
    ⟨rfl, before, queued, rest, rfl, awaited, last, rfl⟩ | ⟨_, rfl, _, counted, rfl⟩
  · have target := silent message member _ (coalescingTarget_eq_some awaited last)
    refine ⟨sending.replace target, rfl, ?_⟩
    intro other otherMember operationSequence otherTarget
    rw [coalescingTarget_replace awaited] at otherTarget
    exact silent other otherMember operationSequence otherTarget
  · refine ⟨sending.append counted, rfl, ?_⟩
    intro other otherMember operationSequence target data dataMember current same
    rcases coalescingTarget_append target with new | old
    · have bounds := sending.recent data dataMember current
      have equal := congrArg UInt64.toNat (same.trans new)
      dsimp only at equal
      omega
    · exact silent other otherMember operationSequence old data dataMember current same

theorem push_keeps_sending {codec : Codec V F} {queue after : OutboundClientSessionQueue V}
    (sending : Sending base spoken queue.messages link)
    (silent : Silent spoken link.generation pushed queue.messages)
    (done : queue.push codec link pushed = .ok (after, linkAfter)) :
    Sending base spoken after.messages linkAfter ∧ linkAfter.generation = link.generation := by
  have kept : Sending base spoken after.messages linkAfter ∧
      linkAfter.generation = link.generation ∧
      Silent spoken link.generation pushed after.messages := by
    refine push_invariant (fun messages current => Sending base spoken messages current ∧
        current.generation = link.generation ∧ Silent spoken link.generation pushed messages)
      ?_ ⟨sending, rfl, silent⟩ done
    intro message member before current next currentNext held enqueued
    exact enqueue_keeps_sending member held enqueued
  exact ⟨kept.1, kept.2.1⟩

end Pushing

/-- The fingerprints that the receiver has kept since the generation began are those of
messages on the wire. -/
structure Receiving (codec : Codec V F) (base : Nat) (spoken : List (DataOperation V))
    (receiver : ClientSessionLink F) : Prop where
  known : ∀ sequence fingerprint, receiver.receiveFingerprints[sequence]? = some fingerprint →
    sequence ≤ receiver.appliedReceiveThrough
  accepted : ∀ sequence fingerprint,
    receiver.receiveFingerprints[sequence]? = some fingerprint → base < sequence.toNat →
    ∃ data ∈ spoken, data.generation = receiver.generation ∧ data.operationSequence = sequence ∧
      codec.semanticFingerprint data.message = .ok fingerprint

namespace Receiving

variable {codec : Codec V F} {base : Nat} {spoken more : List (DataOperation V)}
  {receiver after : ClientSessionLink F}

theorem mono (receiving : Receiving codec base spoken receiver) (grown : spoken ⊆ more) :
    Receiving codec base more receiver where
  known := receiving.known
  accepted sequence fingerprint found recent := by
    rcases receiving.accepted sequence fingerprint found recent with ⟨data, member, named⟩
    exact ⟨data, grown member, named⟩

theorem receive [DecidableEq F] (receiving : Receiving codec base spoken receiver)
    {operation : ReceiveOperation}
    (member : data ∈ spoken) (current : data.generation = receiver.generation)
    (hashed : codec.semanticFingerprint data.message = .ok fingerprint)
    (received : receiver.receiveData data.operationSequence fingerprint = .ok (operation, after)) :
    Receiving codec base spoken after ∧ after.generation = receiver.generation := by
  rcases receiveData_cases received with
    ⟨_, next, rfl⟩ | ⟨_, rfl⟩ | ⟨_, _, _, rfl⟩
  · refine ⟨⟨?_, ?_⟩, rfl⟩
    · intro sequence found present
      rcases getElem?_applied present with ⟨same, _⟩ | old
      · exact same ▸ UInt64.le_refl _
      · exact UInt64.le_trans (receiving.known sequence found old) (next ▸ le_saturatingIncrement)
    · intro sequence found present recent
      rcases getElem?_applied present with ⟨rfl, rfl⟩ | old
      · exact ⟨data, member, current, rfl, hashed⟩
      · exact receiving.accepted sequence found old recent
  · exact ⟨⟨receiving.known, receiving.accepted⟩, rfl⟩
  · exact ⟨⟨receiving.known, receiving.accepted⟩, rfl⟩

end Receiving

/-- What every step without a spoken coalescing keeps. -/
structure Consistent (codec : Codec V F) (exchange : Exchange V F) : Prop where
  generation_eq : exchange.receiver.generation = exchange.link.generation
  parties : ∃ base, Sending base exchange.spoken exchange.queue.messages exchange.link ∧
    Receiving codec base exchange.spoken exchange.receiver

theorem consistent_start {codec : Codec V F} {graphHash schemaHash sessionId : Identity}
    {graphRevision : UInt64} {limits : ClientSessionQueueLimits} :
    Consistent codec
      (start graphHash schemaHash graphRevision sessionId generation limits : Exchange V F) := by
  refine ⟨rfl, 0, ?_, ?_⟩
  · constructor
    case floor => exact Nat.zero_lt_one
    all_goals simp [start, spoken]
  · constructor
    all_goals simp [start, ClientSessionLink.new]

section Steps

variable {codec : Codec V F} {exchange next : Exchange V F}
  (consistent : Consistent codec exchange)
include consistent

theorem Consistent.of_sender (wire_eq : next.wire = exchange.wire)
    (receiver_eq : next.receiver = exchange.receiver)
    (generation_eq : next.link.generation = exchange.link.generation)
    (sending : ∀ base, Sending base exchange.spoken exchange.queue.messages exchange.link →
      Sending base exchange.spoken next.queue.messages next.link) : Consistent codec next := by
  rcases consistent with ⟨same, base, sender, receiving⟩
  have spoken_eq : next.spoken = exchange.spoken := by
    unfold spoken
    rw [wire_eq]
  refine ⟨?_, base, ?_, ?_⟩
  · rw [receiver_eq, generation_eq, same]
  · exact spoken_eq ▸ sending base sender
  · rw [spoken_eq, receiver_eq]
    exact receiving

theorem Consistent.push {messages : List (DistributedMessage V)}
    (unspoken : exchange.Unspoken (.push messages))
    (pushed : exchange.push codec messages = some next) : Consistent codec next := by
  rcases map_eq_some_iff.mp pushed with ⟨⟨queue, link⟩, done, rfl⟩
  rw [toOption_eq_some_iff] at done
  have silent : Silent exchange.spoken exchange.link.generation messages
      exchange.queue.messages := by
    intro message member operationSequence target data dataMember current same
    rcases mem_spoken_iff.mp dataMember with ⟨frame, onWire, carried⟩
    exact unspoken message member operationSequence target
      ⟨frame, onWire, data, carried, current, same⟩
  rcases consistent with ⟨generations, base, sending, receiving⟩
  have kept := push_keeps_sending sending silent done
  exact ⟨generations.trans kept.2.symm, base, kept.1, receiving⟩

theorem Consistent.transmit
    (sent : exchange.transmit codec = some next) : Consistent codec next := by
  unfold Exchange.transmit at sent
  split at sent
  · next data encoded =>
      cases sent
      rcases encodeNext_eq_some encoded with ⟨queued, found, rfl⟩
      rcases consistent with ⟨generations, base, sending, receiving⟩
      have spoken_eq : spoken { exchange with
          wire := exchange.wire ++
            [exchange.link.dataFrame queued.operationSequence queued.message] } =
          exchange.spoken ++
            [⟨exchange.link.generation, queued.operationSequence, queued.message⟩] := by
        unfold spoken
        rw [filterMap_append]
        rfl
      refine ⟨generations, base, ?_, ?_⟩
      · rw [spoken_eq]
        exact sending.transmit (mem_of_find?_eq_some found)
      · rw [spoken_eq]
        exact receiving.mono (subset_append_left _ _)
  · cases sent

theorem Consistent.markSent
    (marked : exchange.markSent operationSequence = some next) : Consistent codec next := by
  rcases map_eq_some_iff.mp marked with ⟨queue, done, rfl⟩
  refine consistent.of_sender rfl rfl rfl fun base sending => ?_
  have same : queue.messages.map entry = exchange.queue.messages.map entry :=
    Modified.map_eq (fun _ => by rfl) (markSent_eq_some done)
  exact sending.of_sublist (same ▸ Sublist.refl _) rfl rfl

theorem Consistent.acknowledge {ackThrough : UInt64}
    (acknowledged : exchange.acknowledge ackThrough = some next) : Consistent codec next := by
  rcases map_eq_some_iff.mp acknowledged with ⟨⟨_, _⟩, done, rfl⟩
  rw [toOption_eq_some_iff] at done
  rcases acceptPeerAck_eq_ok_iff.mp done with ⟨_, _, rfl⟩
  refine consistent.of_sender rfl rfl rfl fun base sending => ?_
  exact sending.of_sublist ((dropWhile_sublist _).map _) rfl rfl

theorem Consistent.resend {expectedNext : UInt64}
    (resent : exchange.resend expectedNext = some next) : Consistent codec next := by
  unfold Exchange.resend at resent
  split at resent
  · rcases map_eq_some_iff.mp resent with ⟨queue, done, rfl⟩
    rw [toOption_eq_some_iff] at done
    rcases resendFrom_eq_ok_iff.mp done with ⟨_, rfl⟩
    refine consistent.of_sender rfl rfl rfl fun base sending => ?_
    have same : (exchange.queue.messages.map (unmarkFrom expectedNext)).map entry =
        exchange.queue.messages.map entry := by
      simp [entry]
    exact sending.of_sublist (same ▸ Sublist.refl _) rfl rfl
  · cases resent

theorem Consistent.reconnect {peerAppliedThrough : UInt64}
    (reconnected : exchange.reconnect generation peerAppliedThrough = some next) :
    Consistent codec next := by
  unfold Exchange.reconnect at reconnected
  simp only [bind_eq_bind, bind_eq_some_iff, toOption_eq_some_iff] at reconnected
  rcases reconnected with ⟨_, linkBound, receiver, receiverBound, result⟩
  cases result
  rcases rebind_eq_ok_iff.mp linkBound with ⟨newer, nextSend, counted, rfl⟩
  rcases rebind_eq_ok_iff.mp receiverBound with ⟨_, _, _, rfl⟩
  rcases consistent with ⟨_, _, sending, receiving⟩
  have counted_toNat := toNat_of_checkedIncrement counted
  -- frames of the older generations are no longer current
  have stale : ∀ data ∈ exchange.spoken, data.generation ≠ generation := by
    intro data member same
    have old := sending.older data member
    rw [same] at old
    exact UInt64.not_le.mpr newer old
  refine ⟨rfl, exchange.receiver.appliedReceiveThrough.toNat, ?_, ?_⟩
  · constructor
    · exact List.Pairwise.nil
    · rintro _ ⟨⟩
    · rintro _ ⟨⟩
    · change _ < nextSend.toNat
      omega
    · exact fun data member => UInt64.le_trans (sending.older data member) (UInt64.le_of_lt newer)
    · exact fun data member current => absurd current (stale data member)
    · exact fun data member current => absurd current (stale data member)
    · exact sending.message_eq
  · constructor
    · exact receiving.known
    · intro sequence fingerprint found recent
      have bound := UInt64.le_iff_toNat_le.mp (receiving.known sequence fingerprint found)
      omega

theorem Consistent.requestResync
    (requested : exchange.requestResync = some next) : Consistent codec next := by
  rcases map_eq_some_iff.mp requested with ⟨_, _, rfl⟩
  exact consistent.of_sender rfl rfl rfl fun _ sending => sending

variable [DecidableEq F]

theorem Consistent.receive (received : exchange.receive operationSequence fingerprint = some next) :
    Consistent codec next := by
  rcases map_eq_some_iff.mp received with ⟨⟨_, link⟩, done, rfl⟩
  rw [toOption_eq_some_iff] at done
  have counters : link.nextSendOperationSequence = exchange.link.nextSendOperationSequence ∧
      link.generation = exchange.link.generation := by
    rcases receiveData_cases done with ⟨_, _, rfl⟩ | ⟨_, rfl⟩ | ⟨_, _, _, rfl⟩
    all_goals exact ⟨rfl, rfl⟩
  refine consistent.of_sender rfl rfl counters.2 fun base sending => ?_
  exact sending.of_sublist (Sublist.refl _) counters.1 counters.2

theorem Consistent.deliver {position : Nat}
    (delivered : exchange.deliver codec position = some next) : Consistent codec next := by
  unfold Exchange.deliver at delivered
  simp only [bind_eq_bind, bind_eq_some_iff, toOption_eq_some_iff] at delivered
  rcases delivered with ⟨frame, located, _, identified, data, carried, _, hashed,
    ⟨_, _⟩, received, result⟩
  cases result
  rcases consistent with ⟨generations, base, sending, receiving⟩
  have member : data ∈ exchange.spoken :=
    mem_spoken_iff.mpr ⟨frame, mem_of_getElem? located, carried⟩
  have current := generation_of_decodeIdentity identified carried
  have kept := receiving.receive member current hashed received
  exact ⟨kept.2.trans generations, base, sending, kept.1⟩

theorem Consistent.step (stepped : UnspokenStep codec exchange next) : Consistent codec next := by
  rcases stepped with ⟨event, unspoken, done⟩
  cases event with
  | push => exact consistent.push unspoken done
  | transmit => exact consistent.transmit done
  | markSent => exact consistent.markSent done
  | acknowledge => exact consistent.acknowledge done
  | resend => exact consistent.resend done
  | receive => exact consistent.receive done
  | deliver => exact consistent.deliver done
  | requestResync => exact consistent.requestResync done
  | reconnect => exact consistent.reconnect done

theorem Consistent.unambiguous : Unambiguous codec exchange := by
  rcases consistent with ⟨generations, _, sending, receiving⟩
  constructor
  · intro first firstMember second secondMember firstData secondData firstCarried secondCarried
      sameGeneration sameOperation
    exact sending.message_eq firstData (mem_spoken_iff.mpr ⟨first, firstMember, firstCarried⟩)
      secondData (mem_spoken_iff.mpr ⟨second, secondMember, secondCarried⟩) sameGeneration
      sameOperation
  · intro frame member data fingerprint carried current hashed refused
    have onWire : data ∈ exchange.spoken := mem_spoken_iff.mpr ⟨frame, member, carried⟩
    rcases accepted_of_classifyReceive refused with ⟨accepted, found, different⟩
    have recent := (sending.recent data onWire (current.trans generations)).1
    rcases receiving.accepted _ accepted found recent with
      ⟨earlier, earlierMember, earlierCurrent, sameOperation, earlierHashed⟩
    have same := sending.message_eq earlier earlierMember data onWire
      (earlierCurrent.trans current.symm) sameOperation
    rw [same, hashed] at earlierHashed
    exact different (Except.ok.inj earlierHashed).symm

end Steps

/-- The state of an export in a revision. -/
def revised (exportId : ExportId) (revision : UInt64) : DistributedMessage Unit :=
  ⟨.client, .session, .current exportId revision ()⟩

/-- Frames of one byte, messages told apart by their revision. -/
def revisionCodec : Codec Unit UInt64 where
  encodedLength _ := .ok 1
  semanticFingerprint message :=
    match message.payload with
    | .current _ revision _ => .ok revision
    | _ => .ok 0

/-- The exchange before its first message. -/
def unspokenStart : Exchange Unit UInt64 :=
  start 0 0 0 0 1 ⟨64, 1024⟩

/-- In every run in which no message is coalesced into an operation on the wire, an operation
sequence of a generation names one message. -/
theorem unambiguous_of_unspoken_run [DecidableEq F] {codec : Codec V F} {exchange : Exchange V F}
    {graphHash schemaHash sessionId : Identity} {graphRevision generation : UInt64}
    {limits : ClientSessionQueueLimits} (run : Relation.ReflTransGen (UnspokenStep codec)
      (start graphHash schemaHash graphRevision sessionId generation limits) exchange) :
    Unambiguous codec exchange := by
  have consistent : Consistent codec exchange := by
    induction run with
    | refl => exact consistent_start
    | tail _ stepped held => exact held.step stepped
  exact consistent.unambiguous

/-- A revision that waits is replaced by the next one, and then sent and applied. -/
theorem unambiguous_after_coalescing : ∃ first second sent delivered,
    unspokenStart.push revisionCodec [revised 1 1] = some first ∧
    first.push revisionCodec [revised 1 2, revised 2 1] = some second ∧
    second.transmit revisionCodec = some sent ∧ sent.deliver revisionCodec 0 = some delivered ∧
    Unambiguous revisionCodec delivered := by
  have enabled : ((((unspokenStart.push revisionCodec [revised 1 1]).bind
      (·.push revisionCodec [revised 1 2, revised 2 1])).bind
      (·.transmit revisionCodec)).bind (·.deliver revisionCodec 0)).isSome := rfl
  rcases Option.isSome_iff_exists.mp enabled with ⟨delivered, run⟩
  rcases Option.bind_eq_some_iff.mp run with ⟨sent, sending, delivering⟩
  rcases Option.bind_eq_some_iff.mp sending with ⟨second, pushing, transmitting⟩
  rcases Option.bind_eq_some_iff.mp pushing with ⟨first, started, replacing⟩
  have silent {exchange : Exchange Unit UInt64} {messages : List (DistributedMessage Unit)}
      (empty : exchange.wire = []) : exchange.Unspoken (.push messages) := by
    rintro _ _ _ _ ⟨_, spoken, _⟩
    rw [empty] at spoken
    cases spoken
  have start : UnspokenStep revisionCodec unspokenStart first := ⟨.push _, silent rfl, started⟩
  have replace : UnspokenStep revisionCodec first second := by
    obtain ⟨_, _, rfl⟩ := Option.map_eq_some_iff.mp started
    exact ⟨.push _, silent rfl, replacing⟩
  have transmit : UnspokenStep revisionCodec second sent := ⟨.transmit, trivial, transmitting⟩
  have deliver : UnspokenStep revisionCodec sent delivered := ⟨.deliver 0, trivial, delivering⟩
  exact ⟨first, second, sent, delivered, started, replacing, transmitting, delivering,
    unambiguous_of_unspoken_run
      ((((Relation.ReflTransGen.single start).tail replace).tail transmit).tail deliver)⟩

/-- The second frame arrives before the first, so the receiver asks for the first again.  It
has arrived by the time the sender hears of it, and the sender coalesces into it. -/
def overtaken : List (ExchangeEvent Unit UInt64) :=
  [.push [revised 1 1], .transmit, .markSent 1, .push [revised 2 1], .transmit, .markSent 2,
    .deliver 1, .requestResync, .deliver 0, .resend 1, .push [revised 1 2], .transmit]

theorem overtaken_run_is_ambiguous : ∃ exchange,
    Relation.ReflTransGen
      (fun current next => ∃ event, step revisionCodec current event = some next)
      unspokenStart exchange ∧
    (∃ first ∈ exchange.wire, ∃ second ∈ exchange.wire,
      first.dataOperation = some ⟨1, 1, revised 1 1⟩ ∧
      second.dataOperation = some ⟨1, 1, revised 1 2⟩) ∧
    exchange.receiver.generation = 1 ∧
    revisionCodec.semanticFingerprint (revised 1 2) = .ok 2 ∧
    exchange.receiver.classifyReceive 1 2 = .error .invalidTransportFrame := by
  have evaluated : (overtaken.foldlM (step revisionCodec) unspokenStart).map
      (fun last => (last.wire.map (·.dataOperation), last.receiver)) =
      some ([some ⟨1, 1, revised 1 1⟩, some ⟨1, 2, revised 2 1⟩, some ⟨1, 1, revised 1 2⟩],
        applied (ClientSessionLink.requestResync (.new 0 0 0 0 1) 1) 1 1) :=
    rfl
  rcases Option.map_eq_some_iff.mp evaluated with ⟨exchange, run, result⟩
  have wire_eq := congrArg Prod.fst result
  have receiver_eq := congrArg Prod.snd result
  dsimp only at wire_eq receiver_eq
  have carries : ∀ data, some data ∈ exchange.wire.map (·.dataOperation) →
      ∃ frame ∈ exchange.wire, frame.dataOperation = some data :=
    fun data member => mem_map.mp member
  rcases carries ⟨1, 1, revised 1 1⟩ (by simp [wire_eq]) with ⟨first, firstMember, firstData⟩
  rcases carries ⟨1, 1, revised 1 2⟩ (by simp [wire_eq]) with ⟨second, secondMember, secondData⟩
  refine ⟨exchange, reflTransGen_of_foldlM run,
    ⟨first, firstMember, second, secondMember, firstData, secondData⟩, ?_, rfl, ?_⟩
  · rw [receiver_eq]
    rfl
  · rw [receiver_eq, classifyReceive_applied (by decide)]
    rfl

end Exchange

end BoonCircuit.Distributed
