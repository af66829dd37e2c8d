namespace Runbook.Text

/-!
# Sets of characters as tables

A set of code points is written as the list of places where membership
changes: the first starts a range that is in the set, the second ends it, and
so on.  A code point is in the set when the number of places at or below it is
odd.
-/

/-- The number of entries at or below a value, of an ascending table, searched
between two positions. -/
def countBelow (table : Array Nat) (value : Nat) : (low high fuel : Nat) → Nat
  | low, _, 0 => low
  | low, high, fuel + 1 =>
      if low < high then
        let middle := (low + high) / 2
        if table.getD middle 0 ≤ value then
          countBelow table value (middle + 1) high fuel
        else
          countBelow table value low middle fuel
      else low

/-- Whether a code point is in the set that a table writes. -/
def inTable (table : Array Nat) (value : Nat) : Bool :=
  countBelow table value 0 table.size 32 % 2 = 1

end Runbook.Text
