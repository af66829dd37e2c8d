import Runbook.Fault

namespace Runbook

/-!
# Endings

An operation ends with a result, or it breaks down: then it has no result, and
whatever waits for it breaks down too, until something catches the breakdown.
-/

instance instDecidableEqResult {α : Type} [DecidableEq α] : DecidableEq (Except Fault α) :=
  fun a b =>
    match a, b with
    | .ok a, .ok b => decidable_of_iff (a = b) (by simp)
    | .error a, .error b => decidable_of_iff (a = b) (by simp)
    | .ok _, .error _ => .isFalse (by simp)
    | .error _, .ok _ => .isFalse (by simp)

/-- How an operation ends. -/
inductive Ending (α : Type) where
  | finished (result : Except Fault α)
  | brokeDown
  deriving DecidableEq

namespace Ending

variable {α : Type}

/-- The ending with a value. -/
def value (a : α) : Ending α := finished (.ok a)

/-- The ending with a fault. -/
def fault (fault : Fault) : Ending α := finished (.error fault)

/-- The result, where a breakdown counts as the given one. -/
def resultOr (onBreakdown : Except Fault α) : Ending α → Except Fault α
  | finished result => result
  | brokeDown => onBreakdown

end Ending

end Runbook
