import Runbook.Duration
import Runbook.Fault

namespace Runbook

/-!
# Contexts

A context says whether work may go on.  It ends when it is cancelled or when its
deadline passes.  Contexts form a tree: a child ends no later than its parent,
and ending a child leaves the parent alone.  A tree keeps its contexts in the
order of their making, so a parent comes before its children.
-/

/-- One context of a tree. -/
structure Context where
  /-- The position of the parent in the tree. -/
  parent : Option Nat := none
  /-- The instant from which the context itself is cancelled. -/
  cancelledFrom : Option Instant := none
  /-- The instant from which the deadline has passed. -/
  deadline : Option Instant := none
  deriving DecidableEq, Repr

/-- Contexts, each after its parent. -/
structure ContextTree where
  contexts : List Context := []
  deriving DecidableEq, Repr

/-- The earlier of two optional instants. -/
def earliest (a b : Option Instant) : Option Instant :=
  match a, b with
  | none, b => b
  | a, none => a
  | some a, some b => some (min a b)

namespace ContextTree

/-- The number of contexts, which is the position of the next one. -/
def size (tree : ContextTree) : Nat := tree.contexts.length

/-- Add a context without a parent. -/
def root (tree : ContextTree) : ContextTree := ⟨tree.contexts ++ [{ parent := none }]⟩

/-- The deadline of a context. -/
def deadline? (tree : ContextTree) (id : Nat) : Option Instant :=
  (tree.contexts[id]?).bind (·.deadline)

/-- Add a context below another one, with the given deadline or that of its parent if that is
earlier. -/
def below (tree : ContextTree) (parent : Nat) (limit : Option Instant) : ContextTree :=
  ⟨tree.contexts ++
    [{ parent := some parent, deadline := earliest limit (tree.deadline? parent) }]⟩

/-- Add a child, which has the deadline of its parent. -/
def child (tree : ContextTree) (parent : Nat) : ContextTree := tree.below parent none

/-- Add a child whose deadline is a timeout from now, or that of its parent if
that is earlier; `none` if the timeout ends beyond the last instant. -/
def withTimeout (tree : ContextTree) (parent : Nat) (now : Instant) (timeout : Duration) :
    Option ContextTree :=
  (now.after? timeout).map fun limit => tree.below parent (some limit)

/-- Cancel a context from an instant on. -/
def cancel (tree : ContextTree) (id : Nat) (at_ : Instant) : ContextTree :=
  ⟨tree.contexts.modify id fun context =>
    { context with cancelledFrom := earliest context.cancelledFrom (some at_) }⟩

/-- The instant from which a context counts as cancelled: the earliest at which
it or a context above it is. -/
def cancelledFrom? (tree : ContextTree) (id : Nat) : Option Instant :=
  match tree.contexts[id]? with
  | none => none
  | some context =>
      match context.parent with
      | none => context.cancelledFrom
      | some parent =>
          if parent < id then earliest context.cancelledFrom (cancelledFrom? tree parent)
          else context.cancelledFrom
termination_by id

/-- Whether an optional instant has come. -/
def hasCome (now : Instant) (limit : Option Instant) : Bool :=
  match limit with
  | none => false
  | some limit => limit ≤ now

/-- Whether a context is cancelled. -/
def isCancelled (tree : ContextTree) (id : Nat) (now : Instant) : Bool :=
  hasCome now (tree.cancelledFrom? id)

/-- Why a context has ended, if it has; being cancelled comes before being late. -/
def ended (tree : ContextTree) (id : Nat) (now : Instant) : Option Fault :=
  if tree.isCancelled id now then some .cancelled
  else if hasCome now (tree.deadline? id) then some .deadlineExceeded
  else none

/-- What a wait for the end of a context gives when it is looked at.  With a deadline it waits for
the cancellation and for the deadline, in this order; without one, for the cancellation alone. -/
def done? (tree : ContextTree) (id : Nat) (now : Instant) : Option Fault :=
  match tree.deadline? id with
  | some limit =>
      if tree.isCancelled id now then some .cancelled
      else if limit ≤ now then some .deadlineExceeded
      else none
  | none => if tree.isCancelled id now then some .cancelled else none

/-- A wait for the end of a context gives what the context says of itself, whether there is a
deadline or not. -/
theorem done?_eq_ended (tree : ContextTree) (id : Nat) (now : Instant) :
    tree.done? id now = tree.ended id now := by
  rw [done?, ended]
  cases tree.deadline? id with
  | some limit =>
      simp only [hasCome, decide_eq_true_eq]
  | none =>
      simp only [hasCome, Bool.false_eq_true, if_false]

/-- The instant at which a wait for the end of a context is over if nothing else happens. -/
def endsAt? (tree : ContextTree) (id : Nat) : Option Instant :=
  earliest (tree.cancelledFrom? id) (tree.deadline? id)

end ContextTree

/-- One thing that is done with contexts, or time that passes. -/
inductive ContextAct where
  | new
  | child (parent : Nat)
  | withTimeout (parent : Nat) (timeout : Duration)
  | cancel (id : Nat)
  | advance (duration : Duration)
  deriving DecidableEq, Repr

end Runbook
