import BoonCircuit.Distributed.Link
import BoonCircuit.Lib.Update

/-!
# The outbound queue of a client/session link

Messages wait with the operation sequence they were given.  A new message takes the
place of a queued one of its key that is not marked as sent, and keeps that one's
operation sequence.
-/

namespace BoonCircuit.Distributed

open Lib Checks

structure ClientSessionQueueLimits where
  maxMessages : Nat
  maxBytes : Nat

structure QueuedClientSessionMessage (V : Type) where
  operationSequence : UInt64
  message : DistributedMessage V
  sentGeneration : Option UInt64

structure OutboundClientSessionQueue (V : Type) where
  messages : List (QueuedClientSessionMessage V)
  limits : ClientSessionQueueLimits

/-- A data frame ready for the wire. -/
structure EncodedClientSessionData (V : Type) where
  frame : ClientSessionFrame V
  operationSequence : UInt64
  ackThrough : UInt64

variable {V F : Type}

namespace QueuedClientSessionMessage

/-- The queued message that a new one takes the place of. -/
def awaits (queued : QueuedClientSessionMessage V) (message : DistributedMessage V) : Bool :=
  queued.sentGeneration.isNone && message.replacesPending queued.message

end QueuedClientSessionMessage

namespace OutboundClientSessionQueue

/-- One round of the loop of `push`. -/
def enqueue (candidate : List (QueuedClientSessionMessage V) × ClientSessionLink F)
    (message : DistributedMessage V) :
    Except DistributedRuntimeError (List (QueuedClientSessionMessage V) × ClientSessionLink F) :=
  match modifyLast (·.awaits message) ({ · with message := message }) candidate.1 with
  | some replaced => .ok (replaced, candidate.2)
  | none => do
    let (operationSequence, link) ← candidate.2.allocateOperationSequence
    return (candidate.1 ++ [⟨operationSequence, message, none⟩], link)

/-- Adds the encoded length of a queued message to the total, within the limit. -/
def addLength (codec : Codec V F) (link : ClientSessionLink F) (maxBytes : Nat)
    (total : Nat) (queued : QueuedClientSessionMessage V) :
    Except DistributedRuntimeError Nat := do
  let length ← codec.encodedLength (link.dataFrame queued.operationSequence queued.message)
  reject (total + length > maxBytes) (.queueBytesFull maxBytes)
  return total + length

def push (codec : Codec V F) (queue : OutboundClientSessionQueue V) (link : ClientSessionLink F)
    (messages : List (DistributedMessage V)) :
    Except DistributedRuntimeError (OutboundClientSessionQueue V × ClientSessionLink F) := do
  let (candidate, candidateLink) ← messages.foldlM enqueue (queue.messages, link)
  reject (candidate.length > queue.limits.maxMessages) (.queueFull queue.limits.maxMessages)
  discard (candidate.foldlM (addLength codec candidateLink queue.limits.maxBytes) 0)
  return ({ queue with messages := candidate }, candidateLink)

variable (queue : OutboundClientSessionQueue V)

/-- The first queued message that is not marked as sent in the generation. -/
def nextUnsent (generation : UInt64) : Option (QueuedClientSessionMessage V) :=
  queue.messages.find? fun queued => queued.sentGeneration != some generation

def encodeNext (codec : Codec V F) (queue : OutboundClientSessionQueue V)
    (link : ClientSessionLink F) :
    Except DistributedRuntimeError (Option (EncodedClientSessionData V)) :=
  match queue.nextUnsent link.generation with
  | none => return none
  | some queued => do
    let frame := link.dataFrame queued.operationSequence queued.message
    discard (codec.encodedLength frame)
    return some ⟨frame, queued.operationSequence, link.appliedReceiveThrough⟩

/-- Nothing when no message has the operation sequence. -/
def markSent (operationSequence generation : UInt64) : Option (OutboundClientSessionQueue V) :=
  (modifyFirst (·.operationSequence == operationSequence)
    ({ · with sentGeneration := some generation }) queue.messages).map
    ({ queue with messages := · })

def acknowledgeThrough (ackThrough : UInt64) : OutboundClientSessionQueue V :=
  { queue with
    messages := queue.messages.dropWhile fun queued =>
      decide (queued.operationSequence ≤ ackThrough) }

/-- The queued message is to be sent again when it is not older than the operation. -/
def unmarkFrom (expectedNext : UInt64) (queued : QueuedClientSessionMessage V) :
    QueuedClientSessionMessage V :=
  if queued.operationSequence ≥ expectedNext then { queued with sentGeneration := none }
  else queued

def resendFrom (expectedNext lastOperation : UInt64) :
    Except DistributedRuntimeError (OutboundClientSessionQueue V) := do
  reject (expectedNext = 0 ∨ expectedNext > saturatingIncrement lastOperation)
    .transportSequenceMismatch
  return { queue with messages := queue.messages.map (unmarkFrom expectedNext) }

def clear : OutboundClientSessionQueue V :=
  { queue with messages := [] }

variable {link linkAfter : ClientSessionLink F} {codec : Codec V F}
  {queue after : OutboundClientSessionQueue V} {messages : List (DistributedMessage V)}
  {expectedNext : UInt64} {queued : QueuedClientSessionMessage V}

/-- One round either replaces the last pending message of the same key, or appends the
message under the next operation sequence. -/
theorem enqueue_cases {messages after : List (QueuedClientSessionMessage V)}
    {message : DistributedMessage V}
    (enqueued : enqueue (messages, link) message = .ok (after, linkAfter)) :
    (linkAfter = link ∧ ∃ before queued rest, messages = before ++ queued :: rest ∧
      queued.awaits message = true ∧ (∀ later ∈ rest, later.awaits message = false) ∧
      after = before ++ { queued with message := message } :: rest) ∨
    ((∀ queued ∈ messages, queued.awaits message = false) ∧
      after = messages ++ [⟨link.nextSendOperationSequence, message, none⟩] ∧
      ∃ next, checkedIncrement link.nextSendOperationSequence = some next ∧
        linkAfter = { link with nextSendOperationSequence := next }) := by
  unfold enqueue at enqueued
  split at enqueued
  · next replaced found =>
      cases enqueued
      rcases modifyLast_eq_some found with ⟨before, queued, rest, shape, chosen, last, result⟩
      exact .inl ⟨rfl, before, queued, rest, shape, chosen, last, result⟩
  · next absent =>
      rw [bind_eq_ok_iff] at enqueued
      rcases enqueued with ⟨⟨_, _⟩, allocation, enqueued⟩
      rcases ClientSessionLink.allocateOperationSequence_eq_ok_iff.mp allocation with
        ⟨rfl, next, counted, rfl⟩
      cases enqueued
      exact .inr ⟨modifyLast_eq_none_iff.mp absent, rfl, next, counted, rfl⟩

theorem push_eq_ok (pushed : queue.push codec link messages = .ok (after, linkAfter)) :
    messages.foldlM enqueue (queue.messages, link) = .ok (after.messages, linkAfter) := by
  unfold push at pushed
  rw [bind_eq_ok_iff] at pushed
  rcases pushed with ⟨⟨_, _⟩, looped, pushed⟩
  rw [check_bind_eq_ok_iff] at pushed
  rcases pushed with ⟨_, pushed⟩
  rw [bind_eq_ok_iff] at pushed
  rcases pushed with ⟨_, _, pushed⟩
  cases pushed
  exact looped

theorem push_invariant
    (Invariant : List (QueuedClientSessionMessage V) → ClientSessionLink F → Prop)
    (round : ∀ message ∈ messages, ∀ before link next linkNext, Invariant before link →
      enqueue (before, link) message = .ok (next, linkNext) → Invariant next linkNext)
    (holds : Invariant queue.messages link)
    (pushed : queue.push codec link messages = .ok (after, linkAfter)) :
    Invariant after.messages linkAfter := by
  refine foldlM_invariant (fun state => Invariant state.1 state.2) ?_ ?_ (push_eq_ok pushed)
  case refine_2 => exact holds
  rintro message member ⟨before, link⟩ ⟨next, linkNext⟩ holds enqueued
  exact round message member before link next linkNext holds enqueued

theorem encodeNext_eq_some {data : EncodedClientSessionData V}
    (encoded : queue.encodeNext codec link = .ok (some data)) :
    ∃ queued, queue.nextUnsent link.generation = some queued ∧
      data = ⟨link.dataFrame queued.operationSequence queued.message, queued.operationSequence,
        link.appliedReceiveThrough⟩ := by
  unfold encodeNext at encoded
  split at encoded
  · cases encoded
  · next queued found =>
      rw [bind_eq_ok_iff] at encoded
      rcases encoded with ⟨_, _, encoded⟩
      cases encoded
      exact ⟨queued, found, rfl⟩

theorem markSent_eq_some {operationSequence generation : UInt64}
    (marked : queue.markSent operationSequence generation = some after) :
    Modified (·.operationSequence == operationSequence)
      ({ · with sentGeneration := some generation }) queue.messages after.messages := by
  rcases Option.map_eq_some_iff.mp marked with ⟨messages, modified, rfl⟩
  exact modified_of_modifyFirst modified

theorem resendFrom_eq_ok_iff {lastOperation : UInt64} :
    queue.resendFrom expectedNext lastOperation = .ok after ↔
      ¬ (expectedNext = 0 ∨ expectedNext > saturatingIncrement lastOperation) ∧
      { queue with messages := queue.messages.map (unmarkFrom expectedNext) } = after := by
  unfold resendFrom
  rw [check_bind_eq_ok_iff, reject_eq_ok_iff, pure_eq_ok_iff]

@[simp]
theorem unmarkFrom_operationSequence :
    (unmarkFrom expectedNext queued).operationSequence = queued.operationSequence := by
  unfold unmarkFrom
  split <;> rfl

@[simp]
theorem unmarkFrom_message : (unmarkFrom expectedNext queued).message = queued.message := by
  unfold unmarkFrom
  split <;> rfl

end OutboundClientSessionQueue

end BoonCircuit.Distributed
