namespace Runbook

/-!
# Broadcast channels

A channel keeps the last few messages.  Each receiver reads on from where it
joined; one that falls behind by more than the channel keeps misses the messages
in between.
-/

/-- A channel with the reading position of each receiver. -/
structure Broadcast (α : Type) where
  /-- How many messages are kept. -/
  capacity : Nat
  /-- Every message sent so far. -/
  sent : List α := []
  /-- How many messages each receiver has behind it. -/
  positions : List Nat := []
  deriving DecidableEq, Repr

namespace Broadcast

variable {α : Type}

/-- Send a message to everyone who has joined. -/
def send (channel : Broadcast α) (message : α) : Broadcast α :=
  { channel with sent := channel.sent ++ [message] }

/-- Join as a receiver of what is sent from now on. -/
def join (channel : Broadcast α) : Broadcast α :=
  { channel with positions := channel.positions ++ [channel.sent.length] }

/-- The message that a receiver gets next, if there is one, and the channel after
that. -/
def receive (channel : Broadcast α) (receiver : Nat) : Option α × Broadcast α :=
  match channel.positions[receiver]? with
  | none => (none, channel)
  | some position =>
      let next := max position (channel.sent.length - channel.capacity)
      match channel.sent[next]? with
      | none => (none, channel)
      | some message =>
          (some message, { channel with positions := channel.positions.set receiver (next + 1) })

end Broadcast

end Runbook
