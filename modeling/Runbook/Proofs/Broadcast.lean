import Mathlib.Data.List.DropRight
import Runbook.Broadcast

namespace Runbook

/-!
# What is left to read in a channel

For a receiver a channel is a queue: the messages that were sent since it joined and that it
has not read, of which at most as many are kept as the channel has room for.  A receiver takes
from the front of its own queue and leaves the others, a message that is sent goes to the end
of all of them, and whoever joins has an empty queue.
-/

namespace Broadcast

variable {α : Type} {channel : Broadcast α} {receiver : Nat}

/-- The messages that a receiver has yet to read, the next one first. -/
def unread (channel : Broadcast α) (receiver : Nat) : List α :=
  match channel.positions[receiver]? with
  | none => []
  | some position =>
      channel.sent.drop (max position (channel.sent.length - channel.capacity))

/-- No receiver has more messages behind it than were sent. -/
def InStep (channel : Broadcast α) : Prop :=
  ∀ position ∈ channel.positions, position ≤ channel.sent.length

theorem unread_of_le
    (notJoined : channel.positions.length ≤ receiver) :
    channel.unread receiver = [] := by
  rw [unread, List.getElem?_eq_none notJoined]

theorem unread_of_position
    {position : Nat}
    (joined : channel.positions[receiver]? = some position) :
    channel.unread receiver =
      channel.sent.drop (max position (channel.sent.length - channel.capacity)) := by
  rw [unread, joined]

/-- A receiver gets the first message that it has yet to read. -/
theorem receive_fst
    (channel : Broadcast α)
    (receiver : Nat) :
    (channel.receive receiver).1 = (channel.unread receiver).head? := by
  unfold receive unread
  cases channel.positions[receiver]? with
  | none =>
      rfl
  | some position =>
      simp only [List.head?_drop]
      split
      case h_1 isEnd => exact isEnd.symm
      case h_2 message isNext => exact isNext.symm

/-- What a receiver has read is gone for it, and for it only. -/
theorem unread_receive
    (channel : Broadcast α)
    (receiver other : Nat) :
    (channel.receive receiver).2.unread other =
      if other = receiver then (channel.unread receiver).tail else channel.unread other := by
  cases joined : channel.positions[receiver]? with
  | none =>
      have isEmpty : channel.unread receiver = [] := by simp [unread, joined]
      split <;> simp_all [receive]
  | some position =>
      have isRest := unread_of_position joined
      simp only [receive, joined]
      split
      case h_1 isEnd =>
        have isEmpty : channel.unread receiver = [] := by
          rw [isRest, List.drop_eq_nil_iff]
          exact List.getElem?_eq_none_iff.mp isEnd
        split <;> simp_all
      case h_2 message isNext =>
        by_cases isSame : other = receiver
        · have isJoined := (List.getElem?_eq_some_iff.mp joined).1
          rw [if_pos isSame, isRest, List.tail_drop, isSame,
            unread_of_position (List.getElem?_set_self isJoined)]
          -- What comes next is still kept, and so is all that comes after it.
          exact congrArg (channel.sent.drop ·)
            (Nat.max_eq_left ((Nat.le_max_right _ _).trans (Nat.le_succ _)))
        · rw [if_neg isSame, unread, List.getElem?_set_ne (Ne.symm isSame), unread]

/-- Who joins has nothing to read, and nobody else notices. -/
theorem unread_join
    (channel : Broadcast α)
    (receiver : Nat) :
    channel.join.unread receiver = channel.unread receiver := by
  rcases Nat.lt_trichotomy receiver channel.positions.length with isOld | isNew | isOutside
  · simp [unread, join, List.getElem?_append_left isOld]
  · simp [unread, join, isNew]
  · rw [unread_of_le isOutside.le]
    exact unread_of_le (by simpa [join, Nat.succ_le_iff] using isOutside)

/-- A message that is sent is the last one to read for everyone who has joined, and at most
as many are kept as the channel has room for. -/
theorem unread_send
    (inStep : channel.InStep)
    (joined : receiver < channel.positions.length)
    (message : α) :
    (channel.send message).unread receiver =
      (channel.unread receiver ++ [message]).rtake channel.capacity := by
  have isPosition := List.getElem?_eq_getElem joined
  have isInside := inStep _ (List.getElem_mem joined)
  generalize channel.positions[receiver] = position at isPosition isInside
  have laterPosition : (channel.send message).positions[receiver]? = some position := isPosition
  rw [unread_of_position laterPosition, unread_of_position isPosition,
    ← List.drop_append_of_le_length (by omega), List.rtake, List.drop_drop]
  refine congrArg (List.drop · (channel.sent ++ [message])) ?_
  simp only [send, List.length_append, List.length_drop, List.length_singleton]
  omega

theorem InStep.join
    (inStep : channel.InStep) :
    channel.join.InStep := by
  intro position isPosition
  rcases List.mem_append.mp isPosition with wasThere | isNew
  · exact inStep position wasThere
  · exact (List.mem_singleton.mp isNew).le

theorem InStep.receive
    (inStep : channel.InStep)
    (receiver : Nat) :
    (channel.receive receiver).2.InStep := by
  unfold Broadcast.receive
  split
  · exact inStep
  · dsimp only
    split
    case h_1 => exact inStep
    case h_2 message isNext =>
      intro position isPosition
      rcases List.mem_or_eq_of_mem_set isPosition with wasThere | rfl
      · exact inStep position wasThere
      · exact (List.getElem?_eq_some_iff.mp isNext).1

@[simp] theorem length_positions_receive
    (channel : Broadcast α)
    (receiver : Nat) :
    (channel.receive receiver).2.positions.length = channel.positions.length := by
  unfold receive
  split
  · rfl
  · dsimp only
    split
    · rfl
    · simp

@[simp] theorem capacity_receive
    (channel : Broadcast α)
    (receiver : Nat) :
    (channel.receive receiver).2.capacity = channel.capacity := by
  unfold receive
  split
  · rfl
  · dsimp only
    split <;> rfl

end Broadcast

end Runbook
