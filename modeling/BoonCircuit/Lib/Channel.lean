import Mathlib.Data.List.Basic

/-!
# Bounded channels

A queue of messages between senders and one receiver.  A message is sent only while
the receiver exists and there is room, and messages arrive in the order of sending.
The bound is part of the channel, so no channel holds more than it may.
-/

namespace BoonCircuit.Lib

structure Channel (μ : Type) where
  capacity : Nat
  queue : List μ
  /-- Whether the receiver still exists. -/
  connected : Bool
  bounded : queue.length ≤ capacity

inductive SendError where
  | full
  | disconnected
  deriving DecidableEq

namespace Channel

variable {μ : Type} {channel next : Channel μ} {message : μ}

/-- A connected channel without messages. -/
def empty (μ : Type) (capacity : Nat) : Channel μ where
  capacity := capacity
  queue := []
  connected := true
  bounded := Nat.zero_le capacity

/-- Sends without waiting. -/
def trySend (channel : Channel μ) (message : μ) : Except SendError (Channel μ) :=
  if channel.connected = false then .error .disconnected
  else if room : channel.queue.length < channel.capacity then
    .ok { channel with
      queue := channel.queue ++ [message]
      bounded := by rw [List.length_append]; exact room }
  else .error .full

/-- The oldest message and the channel without it. -/
def receive (channel : Channel μ) : Option (μ × Channel μ) :=
  match shape : channel.queue with
  | [] => none
  | message :: rest =>
    some (message, { channel with
      queue := rest
      bounded := by
        have held := channel.bounded
        rw [shape, List.length_cons] at held
        exact Nat.le_of_succ_le held })

/-- The channel after its receiver is gone. -/
def disconnect (channel : Channel μ) : Channel μ :=
  { channel with connected := false }

/-- What a send that succeeded has done. -/
structure Sent (channel : Channel μ) (message : μ) (next : Channel μ) : Prop where
  connected : channel.connected = true
  room : channel.queue.length < channel.capacity
  queue : next.queue = channel.queue ++ [message]
  capacity : next.capacity = channel.capacity
  still : next.connected = true

theorem sent_of_trySend (sent : channel.trySend message = .ok next) :
    Sent channel message next := by
  unfold trySend at sent
  split at sent
  case isTrue => cases sent
  case isFalse alive =>
    have connected : channel.connected = true := by simpa using alive
    split at sent
    case isTrue room =>
      cases sent
      exact ⟨connected, room, rfl, rfl, connected⟩
    case isFalse => cases sent

theorem exists_trySend_iff (connected : channel.connected = true) :
    (∃ next, channel.trySend message = .ok next) ↔ channel.queue.length < channel.capacity := by
  unfold trySend
  rw [if_neg (by simp [connected])]
  split
  case isTrue room => simp [room]
  case isFalse full => simp [full]

theorem trySend_eq_full (connected : channel.connected = true)
    (full : ¬ channel.queue.length < channel.capacity) :
    channel.trySend message = .error .full := by
  unfold trySend
  rw [if_neg (by simp [connected]), dif_neg full]

theorem trySend_ne_disconnected (connected : channel.connected = true) :
    channel.trySend message ≠ .error .disconnected := by
  unfold trySend
  rw [if_neg (by simp [connected])]
  split <;> simp

theorem receive_eq_none_iff : channel.receive = none ↔ channel.queue = [] := by
  unfold receive
  split <;> simp [*]

/-- What a reception has done. -/
structure Received (channel : Channel μ) (message : μ) (next : Channel μ) : Prop where
  queue : channel.queue = message :: next.queue
  capacity : next.capacity = channel.capacity
  connected : next.connected = channel.connected

theorem received_of_receive (received : channel.receive = some (message, next)) :
    Received channel message next := by
  unfold receive at received
  split at received
  case h_1 => cases received
  case h_2 shape =>
    cases received
    exact ⟨shape, rfl, rfl⟩

end Channel

end BoonCircuit.Lib
