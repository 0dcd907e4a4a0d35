import BoonCircuit.Lib.BTree
import BoonCircuit.Lib.Checks
import BoonCircuit.Lib.Word

/-!
# One end of a client/session link

Typed messages between client, session and server, and the counters of one party:
which operation it sends next, what the peer has acknowledged, and what it has applied
itself.  A frame stands for its bytes and carries the message it encodes.  Values are
an arbitrary type; the hash of messages and the length of a frame are parameters.
-/

namespace BoonCircuit.Distributed

open Lib

/-- Failures of the distributed runtime. -/
inductive DistributedRuntimeError where
  | invalidLease
  | sessionDisconnected
  | sessionExpired
  | sessionCapacity (limit : Nat)
  | queueFull (limit : Nat)
  | queueBytesFull (limit : Nat)
  | invalidTransportFrame
  | protocolMismatch
  | schemaMismatch
  | staleTransportGeneration
  | transportSequenceMismatch
  | unknownTransportEdge
  | unknownTransientEffect
  | staleTransientEffectOwner
  | unsupportedScope (detail : String)
  | runtime (detail : String)
  deriving DecidableEq

inductive ProgramRole where
  | client
  | session
  | server
  deriving DecidableEq

/-- An identity of 32 bytes. -/
abbrev Identity : Type := Nat

abbrev ExportId : Type := Identity

abbrev RemoteCallSiteId : Type := Identity

abbrev DistributedCallInstanceId : Type := Identity

abbrev DistributedArgumentId : Type := Identity

inductive DistributedMessagePayload (V : Type) where
  | current (exportId : ExportId) (revision : UInt64) (value : V)
  | event (exportId : ExportId) (sequence : UInt64) (value : Option V)
  | currentCallRequest (callSiteId : RemoteCallSiteId)
      (callInstanceId : DistributedCallInstanceId) (functionExportId : ExportId)
      (demandRevision : UInt64) (arguments : BTreeMap DistributedArgumentId V)
  | currentCallResult (callSiteId : RemoteCallSiteId)
      (callInstanceId : DistributedCallInstanceId) (demandRevision resultRevision : UInt64)
      (value : V)
  | currentCallDetach (callSiteId : RemoteCallSiteId)
      (callInstanceId : DistributedCallInstanceId) (demandRevision : UInt64)
  | invocationRequest (callSiteId : RemoteCallSiteId)
      (callInstanceId : DistributedCallInstanceId) (functionExportId : ExportId)
      (sequence : UInt64) (arguments : BTreeMap DistributedArgumentId V)
  | invocationResult (callSiteId : RemoteCallSiteId)
      (callInstanceId : DistributedCallInstanceId) (sequence : UInt64) (value : V)

structure DistributedMessage (V : Type) where
  producer : ProgramRole
  consumer : ProgramRole
  payload : DistributedMessagePayload V

variable {V : Type}

namespace DistributedMessagePayload

def edgeBytes : DistributedMessagePayload V → Identity
  | .current exportId .. | .event exportId .. => exportId
  | .currentCallRequest callSiteId .. | .currentCallResult callSiteId ..
  | .currentCallDetach callSiteId .. | .invocationRequest callSiteId ..
  | .invocationResult callSiteId .. => callSiteId

def callInstanceId : DistributedMessagePayload V → Option DistributedCallInstanceId
  | .current .. | .event .. => none
  | .currentCallRequest _ callInstanceId .. | .currentCallResult _ callInstanceId ..
  | .currentCallDetach _ callInstanceId .. | .invocationRequest _ callInstanceId ..
  | .invocationResult _ callInstanceId .. => some callInstanceId

/-- The kinds of state that a later message of the same kind makes obsolete. -/
inductive Replaceable where
  | current
  | callResult
  | callDemand
  deriving DecidableEq

def replaceable : DistributedMessagePayload V → Option Replaceable
  | .current .. => some .current
  | .currentCallResult .. => some .callResult
  | .currentCallRequest .. | .currentCallDetach .. => some .callDemand
  | .event .. | .invocationRequest .. | .invocationResult .. => none

end DistributedMessagePayload

/-- What two messages share when one can take the place of the other. -/
structure ReplacementKey where
  producer : ProgramRole
  consumer : ProgramRole
  edgeBytes : Identity
  callInstanceId : Option DistributedCallInstanceId
  kind : DistributedMessagePayload.Replaceable
  deriving DecidableEq

namespace DistributedMessage

def edgeBytes (message : DistributedMessage V) : Identity :=
  message.payload.edgeBytes

def callInstanceId (message : DistributedMessage V) : Option DistributedCallInstanceId :=
  message.payload.callInstanceId

/-- The key of a message that can be replaced while it is pending. -/
def replacementKey (message : DistributedMessage V) : Option ReplacementKey :=
  message.payload.replaceable.map fun kind =>
    ⟨message.producer, message.consumer, message.edgeBytes, message.callInstanceId, kind⟩

def replacesPending (message queued : DistributedMessage V) : Bool :=
  if message.producer ≠ queued.producer ∨ message.consumer ≠ queued.consumer ∨
      message.edgeBytes ≠ queued.edgeBytes ∨ message.callInstanceId ≠ queued.callInstanceId then
    false
  else
    match message.payload, queued.payload with
    | .current .., .current .. => true
    | .currentCallResult .., .currentCallResult .. => true
    | .currentCallRequest .., .currentCallRequest .. => true
    | .currentCallRequest .., .currentCallDetach .. => true
    | .currentCallDetach .., .currentCallRequest .. => true
    | .currentCallDetach .., .currentCallDetach .. => true
    | _, _ => false

theorem replacesPending_iff {message queued : DistributedMessage V} :
    message.replacesPending queued = true ↔
      message.replacementKey.isSome ∧ message.replacementKey = queued.replacementKey := by
  obtain ⟨_, _, payload⟩ := message
  obtain ⟨_, _, queuedPayload⟩ := queued
  unfold replacesPending replacementKey edgeBytes callInstanceId
  cases payload <;> cases queuedPayload <;>
    simp [DistributedMessagePayload.replaceable]

end DistributedMessage

open Lib Checks BTreeMap

/-- A frame between client and session. -/
inductive ClientSessionFrame (V : Type) where
  | data (graphHash : Identity) (graphRevision : UInt64) (schemaHash : Identity)
      (sessionId : Identity) (generation operationSequence ackThrough : UInt64)
      (message : DistributedMessage V)
  | ack (sessionId : Identity) (generation ackThrough : UInt64)
  | resync (sessionId : Identity) (generation expectedNext : UInt64)

/-- The encoder of frames and the hash of messages. -/
structure Codec (V F : Type) where
  /-- The number of bytes of an encoded frame, or why it cannot be encoded. -/
  encodedLength : ClientSessionFrame V → Except DistributedRuntimeError Nat
  semanticFingerprint : DistributedMessage V → Except DistributedRuntimeError F

/-- What a data frame says about the message it carries. -/
structure DataOperation (V : Type) where
  generation : UInt64
  operationSequence : UInt64
  message : DistributedMessage V

def ClientSessionFrame.dataOperation {V : Type} : ClientSessionFrame V → Option (DataOperation V)
  | .data _ _ _ _ generation operationSequence _ message =>
    some ⟨generation, operationSequence, message⟩
  | .ack .. | .resync .. => none

/-- What a received operation is to the link. -/
inductive ReceiveOperation where
  | next
  | duplicate
  | gap (expectedNext : UInt64)
  deriving DecidableEq

inductive SentControl where
  | ack (ackThrough : UInt64)
  | resync (expectedNext : UInt64)
  deriving DecidableEq

/-- One end of the client-session transport. -/
structure ClientSessionLink (F : Type) where
  graphHash : Identity
  schemaHash : Identity
  graphRevision : UInt64
  sessionId : Identity
  generation : UInt64
  nextSendOperationSequence : UInt64
  peerAcknowledgedThrough : UInt64
  appliedReceiveThrough : UInt64
  receiveFingerprints : BTreeMap UInt64 F
  ackPending : Bool
  resyncExpectedNext : Option UInt64

/-- How many accepted operations are remembered. -/
def receiveReplayWindow : UInt64 := 256

def sequenceExhausted : DistributedRuntimeError :=
  .runtime "client/session send operation sequence exhausted"

namespace ClientSessionLink

variable {V F : Type}

def new (graphHash schemaHash : Identity) (graphRevision : UInt64) (sessionId : Identity)
    (generation : UInt64) : ClientSessionLink F where
  graphHash := graphHash
  schemaHash := schemaHash
  graphRevision := graphRevision
  sessionId := sessionId
  generation := generation
  nextSendOperationSequence := 1
  peerAcknowledgedThrough := 0
  appliedReceiveThrough := 0
  receiveFingerprints := ∅
  ackPending := false
  resyncExpectedNext := none

variable (link : ClientSessionLink F)

/-- Sends on from what the peer has applied. -/
def rebaseSendAfterHandshake (peerAppliedThrough : UInt64) :
    Except DistributedRuntimeError (ClientSessionLink F) := do
  let next ← okOr (checkedIncrement peerAppliedThrough) sequenceExhausted
  return { link with
    nextSendOperationSequence := next
    peerAcknowledgedThrough := peerAppliedThrough }

/-- Takes the link over to a newer generation. -/
def rebind (generation peerAppliedThrough : UInt64) :
    Except DistributedRuntimeError (ClientSessionLink F) := do
  reject (generation ≤ link.generation) .staleTransportGeneration
  let rebound ← { link with generation := generation }.rebaseSendAfterHandshake peerAppliedThrough
  return { rebound with
    ackPending := rebound.appliedReceiveThrough != 0
    resyncExpectedNext := none }

def allocateOperationSequence :
    Except DistributedRuntimeError (UInt64 × ClientSessionLink F) := do
  let sequence := link.nextSendOperationSequence
  let next ← okOr (checkedIncrement sequence) sequenceExhausted
  return (sequence, { link with nextSendOperationSequence := next })

def lastSendOperationSequence : UInt64 :=
  saturatingSub link.nextSendOperationSequence 1

/-- The frame that `encode_data` encodes. -/
def dataFrame (operationSequence : UInt64)
    (message : DistributedMessage V) : ClientSessionFrame V :=
  .data link.graphHash link.graphRevision link.schemaHash link.sessionId link.generation
    operationSequence link.appliedReceiveThrough message

/-- The control frame that is due, a resync before an acknowledgement. -/
def pendingControl : Option (ClientSessionFrame V × SentControl) :=
  match link.resyncExpectedNext with
  | some expectedNext =>
    some (.resync link.sessionId link.generation expectedNext, .resync expectedNext)
  | none =>
    if link.ackPending then
      some (.ack link.sessionId link.generation link.appliedReceiveThrough,
        .ack link.appliedReceiveThrough)
    else none

def encodePendingControl (codec : Codec V F) :
    Except DistributedRuntimeError (Option (ClientSessionFrame V × SentControl)) :=
  match link.pendingControl with
  | some (frame, control) => do
    discard (codec.encodedLength frame)
    return some (frame, control)
  | none => return none

def validatePrivateIdentity (sessionId : Identity)
    (generation : UInt64) : Except DistributedRuntimeError Unit := do
  reject (sessionId ≠ link.sessionId) .invalidTransportFrame
  reject (generation ≠ link.generation) .staleTransportGeneration

/-- The checks of `decode_identity` on the frame that the bytes encode. -/
def decodeIdentity : ClientSessionFrame V → Except DistributedRuntimeError Unit
  | .data graphHash graphRevision schemaHash sessionId generation _ _ _ => do
    reject (graphHash ≠ link.graphHash ∨ graphRevision ≠ link.graphRevision) .protocolMismatch
    reject (schemaHash ≠ link.schemaHash) .schemaMismatch
    link.validatePrivateIdentity sessionId generation
  | .ack sessionId generation _ | .resync sessionId generation _ =>
    link.validatePrivateIdentity sessionId generation

/-- A replayed operation has to match the accepted one. -/
def classifyReceive [DecidableEq F] (link : ClientSessionLink F) (operationSequence : UInt64)
    (fingerprint : F) : Except DistributedRuntimeError ReceiveOperation :=
  let expectedNext := saturatingIncrement link.appliedReceiveThrough
  if operationSequence = expectedNext then .ok .next
  else if operationSequence ≤ link.appliedReceiveThrough then
    match link.receiveFingerprints[operationSequence]? with
    | some accepted =>
      if accepted = fingerprint then .ok .duplicate else .error .invalidTransportFrame
    | none => .error .transportSequenceMismatch
  else .ok (.gap expectedNext)

/-- The link after the next operation is applied. -/
def applied (operationSequence : UInt64) (fingerprint : F) : ClientSessionLink F :=
  let retainFrom := saturatingSub operationSequence (saturatingSub receiveReplayWindow 1)
  { link with
    appliedReceiveThrough := operationSequence
    receiveFingerprints :=
      (link.receiveFingerprints.insert operationSequence fingerprint).filter
        fun sequence _ => decide (retainFrom ≤ sequence)
    ackPending := true
    resyncExpectedNext := none }

/-- The outcome, and the link that a gap changes although it is an error. -/
def acceptReceive [DecidableEq F] (link : ClientSessionLink F) (operationSequence : UInt64)
    (fingerprint : F) : Except DistributedRuntimeError Unit × ClientSessionLink F :=
  match link.classifyReceive operationSequence fingerprint with
  | .ok .next => (.ok (), link.applied operationSequence fingerprint)
  | .ok .duplicate => (.ok (), { link with ackPending := true })
  | .ok (.gap expectedNext) =>
    (.error .transportSequenceMismatch, { link with resyncExpectedNext := some expectedNext })
  | .error error => (.error error, link)

def requestResync (expectedNext : UInt64) : ClientSessionLink F :=
  { link with resyncExpectedNext := some (max expectedNext 1) }

/-- How both runtimes treat a data frame: a gap asks for a resync and is not an error. -/
def receiveData [DecidableEq F] (link : ClientSessionLink F) (operationSequence : UInt64)
    (fingerprint : F) :
    Except DistributedRuntimeError (ReceiveOperation × ClientSessionLink F) := do
  match ← link.classifyReceive operationSequence fingerprint with
  | .gap expectedNext => return (.gap expectedNext, link.requestResync expectedNext)
  | operation =>
    let (outcome, accepted) := link.acceptReceive operationSequence fingerprint
    outcome
    return (operation, accepted)

/-- An acknowledgement never lowers the watermark. -/
def acceptPeerAck (ackThrough : UInt64) :
    Except DistributedRuntimeError (UInt64 × ClientSessionLink F) := do
  reject (ackThrough > link.lastSendOperationSequence) .transportSequenceMismatch
  let acknowledged :=
    if ackThrough > link.peerAcknowledgedThrough then ackThrough
    else link.peerAcknowledgedThrough
  return (acknowledged, { link with peerAcknowledgedThrough := acknowledged })

/-- A control frame settles only what is still due. -/
def acknowledgeSentControl : SentControl → ClientSessionLink F
  | .ack ackThrough =>
    if link.appliedReceiveThrough = ackThrough then { link with ackPending := false } else link
  | .resync expectedNext =>
    if link.resyncExpectedNext = some expectedNext then
      { link with resyncExpectedNext := none }
    else link

def acknowledgePiggybackedReceive (ackThrough : UInt64) : ClientSessionLink F :=
  if link.appliedReceiveThrough = ackThrough then { link with ackPending := false } else link

variable {link after : ClientSessionLink F} {peerAppliedThrough sequence : UInt64}

theorem dataOperation_of_encodePendingControl {codec : Codec V F} {frame : ClientSessionFrame V}
    {control : SentControl} (due : link.encodePendingControl codec = .ok (some (frame, control))) :
    frame.dataOperation = none := by
  unfold encodePendingControl pendingControl at due
  split at due
  case h_1 pending =>
    obtain ⟨_, _, same⟩ := bind_eq_ok_iff.mp due
    cases same
    split at pending
    case h_1 =>
      cases pending
      rfl
    case h_2 =>
      split at pending <;> cases pending
      rfl
  case h_2 => cases due

theorem acknowledgeSentControl_cases {control : SentControl} :
    ∃ ackPending resync, link.acknowledgeSentControl control =
      { link with ackPending := ackPending, resyncExpectedNext := resync } := by
  cases control <;> unfold acknowledgeSentControl <;> dsimp only <;> split <;> exact ⟨_, _, rfl⟩

theorem rebaseSendAfterHandshake_eq_ok_iff :
    link.rebaseSendAfterHandshake peerAppliedThrough = .ok after ↔
      ∃ next, checkedIncrement peerAppliedThrough = some next ∧
        { link with
          nextSendOperationSequence := next
          peerAcknowledgedThrough := peerAppliedThrough } = after := by
  unfold rebaseSendAfterHandshake
  simp only [bind_eq_ok_iff, okOr_eq_ok_iff, pure_eq_ok_iff]

theorem rebind_eq_ok_iff {generation : UInt64} :
    link.rebind generation peerAppliedThrough = .ok after ↔
      link.generation < generation ∧
      ∃ next, checkedIncrement peerAppliedThrough = some next ∧
        { link with
          generation := generation
          nextSendOperationSequence := next
          peerAcknowledgedThrough := peerAppliedThrough
          ackPending := link.appliedReceiveThrough != 0
          resyncExpectedNext := none } = after := by
  unfold rebind
  rw [check_bind_eq_ok_iff, reject_eq_ok_iff, UInt64.not_le]
  simp only [bind_eq_ok_iff, rebaseSendAfterHandshake_eq_ok_iff, pure_eq_ok_iff]
  constructor
  · rintro ⟨newer, _, ⟨next, counted, rfl⟩, rfl⟩
    exact ⟨newer, next, counted, rfl⟩
  · rintro ⟨newer, next, counted, rfl⟩
    exact ⟨newer, _, ⟨next, counted, rfl⟩, rfl⟩

theorem allocateOperationSequence_eq_ok_iff :
    link.allocateOperationSequence = .ok (sequence, after) ↔
      sequence = link.nextSendOperationSequence ∧
      ∃ next, checkedIncrement link.nextSendOperationSequence = some next ∧
        { link with nextSendOperationSequence := next } = after := by
  unfold allocateOperationSequence
  simp only [bind_eq_ok_iff, okOr_eq_ok_iff, pure_eq_ok_iff, Prod.mk.injEq]
  constructor
  · rintro ⟨next, counted, rfl, rfl⟩
    exact ⟨rfl, next, counted, rfl⟩
  · rintro ⟨rfl, next, counted, rfl⟩
    exact ⟨next, counted, rfl, rfl⟩

theorem acceptPeerAck_eq_ok_iff {ackThrough acknowledged : UInt64} :
    link.acceptPeerAck ackThrough = .ok (acknowledged, after) ↔
      ackThrough ≤ link.lastSendOperationSequence ∧
      (if ackThrough > link.peerAcknowledgedThrough then ackThrough
        else link.peerAcknowledgedThrough) = acknowledged ∧
      { link with peerAcknowledgedThrough := acknowledged } = after := by
  unfold acceptPeerAck
  simp only [check_bind_eq_ok_iff, reject_eq_ok_iff, UInt64.not_lt, pure_eq_ok_iff, Prod.mk.injEq]
  constructor
  · rintro ⟨known, rfl, rfl⟩
    exact ⟨known, rfl, rfl⟩
  · rintro ⟨known, rfl, rfl⟩
    exact ⟨known, rfl, rfl⟩

theorem generation_of_decodeIdentity {frame : ClientSessionFrame V} {data : DataOperation V}
    (identified : link.decodeIdentity frame = .ok ())
    (carried : frame.dataOperation = some data) : data.generation = link.generation := by
  cases frame with
  | data graphHash graphRevision schemaHash sessionId generation operationSequence ackThrough
      message =>
      cases carried
      unfold decodeIdentity validatePrivateIdentity at identified
      simp only [check_bind_eq_ok_iff, reject_eq_ok_iff, not_not] at identified
      exact identified.2.2.2
  | ack | resync => cases carried

theorem getElem?_applied {operationSequence : UInt64} {fingerprint found : F}
    (present : (link.applied operationSequence fingerprint).receiveFingerprints[sequence]? =
      some found) :
    (sequence = operationSequence ∧ found = fingerprint) ∨
      link.receiveFingerprints[sequence]? = some found := by
  have kept := (getElem?_filter_eq_some_iff _).mp present
  rcases getElem?_insert_eq_some_iff.mp kept.2 with ⟨rfl, rfl⟩ | ⟨_, inserted⟩
  · exact .inl ⟨rfl, rfl⟩
  · exact .inr inserted

section Receiving

variable [DecidableEq F] {operationSequence : UInt64} {fingerprint : F}

theorem classifyReceive_eq_next_iff :
    link.classifyReceive operationSequence fingerprint = .ok .next ↔
      operationSequence = saturatingIncrement link.appliedReceiveThrough := by
  unfold classifyReceive
  repeat' split
  all_goals simp_all

theorem classifyReceive_applied {given : F} (room : operationSequence ≠ 0xFFFFFFFFFFFFFFFF) :
    (link.applied operationSequence fingerprint).classifyReceive operationSequence given =
      if fingerprint = given then .ok .duplicate else .error .invalidTransportFrame := by
  have later : operationSequence ≠ saturatingIncrement operationSequence := by
    intro same
    have equal := congrArg UInt64.toNat same
    have bound := toNat_lt_last room
    rw [toNat_saturatingIncrement] at equal
    omega
  have retained : saturatingSub operationSequence (saturatingSub receiveReplayWindow 1) ≤
      operationSequence := by
    rw [UInt64.le_iff_toNat_le, toNat_saturatingSub]
    omega
  have found : (link.applied operationSequence fingerprint).receiveFingerprints[
      operationSequence]? = some fingerprint := by
    apply (getElem?_filter_eq_some_iff _).mpr
    exact ⟨decide_eq_true retained, by rw [getElem?_insert, if_pos rfl]⟩
  unfold classifyReceive
  rw [found]
  change (if operationSequence = saturatingIncrement operationSequence then _
    else if operationSequence ≤ operationSequence then _ else _) = _
  rw [if_neg later, if_pos (UInt64.le_refl _)]

/-- A mismatch of fingerprints is reported for an operation that was accepted with another
fingerprint. -/
theorem accepted_of_classifyReceive (refused : link.classifyReceive operationSequence fingerprint =
      .error .invalidTransportFrame) :
    ∃ accepted, link.receiveFingerprints[operationSequence]? = some accepted ∧
      accepted ≠ fingerprint := by
  unfold classifyReceive at refused
  dsimp only at refused
  split at refused
  · cases refused
  · split at refused
    · split at refused
      · next accepted found =>
          split at refused
          · cases refused
          · next different => exact ⟨accepted, found, different⟩
      · cases refused
    · cases refused

/-- Receiving applies the next operation, or changes only what is due to the peer. -/
theorem receiveData_cases {operation : ReceiveOperation}
    (received : link.receiveData operationSequence fingerprint = .ok (operation, after)) :
    (operation = .next ∧
        operationSequence = saturatingIncrement link.appliedReceiveThrough ∧
        after = link.applied operationSequence fingerprint) ∨
    (operation = .duplicate ∧ after = { link with ackPending := true }) ∨
    (∃ expectedNext, operation = .gap expectedNext ∧
        link.classifyReceive operationSequence fingerprint = .ok (.gap expectedNext) ∧
        after = link.requestResync expectedNext) := by
  unfold receiveData acceptReceive at received
  rw [bind_eq_ok_iff] at received
  rcases received with ⟨classified, classification, received⟩
  rw [classification] at received
  cases classified with
  | next =>
    cases received
    exact .inl ⟨rfl, classifyReceive_eq_next_iff.mp classification, rfl⟩
  | duplicate =>
    cases received
    exact .inr (.inl ⟨rfl, rfl⟩)
  | gap expectedNext =>
    cases received
    exact .inr (.inr ⟨expectedNext, rfl, classification, rfl⟩)

end Receiving

end ClientSessionLink

end BoonCircuit.Distributed
