import Runbook.Call
import Runbook.Dependency.Graph

namespace Runbook

/-!
# The schedule of a batch

From a table of dependencies each call of a batch gets a rank, its place in the
order of the graph, and the ids that it must wait for.  An id that no call of the
batch has need not be waited for.  A table with a cycle has no schedule, wherever
in it the cycle is.
-/

/-- The rank of each call and the ids it must wait for, call by call. -/
structure Schedule where
  ranks : List Nat
  awaited : List (List String)
  deriving DecidableEq, Repr

namespace Schedule

/-- The schedule of calls that do not depend on each other. -/
def independent (count : Nat) : Schedule :=
  ⟨List.range count, List.replicate count []⟩

/-- The graph of a table of dependencies over the ids of calls. -/
def graphOf (calls : List Call) (table : List (String × List String)) : DependencyGraph :=
  calls.foldl (fun graph call => graph.addNode call.id) (.ofTable table)

/-- The schedule that a table of dependencies gives, or the cycle it has. -/
def ofDependencies (calls : List Call) (table : List (String × List String)) :
    Except Fault Schedule := do
  let graph := graphOf calls table
  let order ← graph.order
  let ids := calls.map (·.id)
  return {
    ranks := ids.map fun id => order.idxOf id
    awaited := ids.map fun id => (graph.dependsOn id).filter (· ∈ ids) }

/-- Put a position at its place by rank; equal ranks keep the order of positions. -/
def insertByRank (ranks : List Nat) (index : Nat) : List Nat → List Nat
  | [] => [index]
  | other :: rest =>
      if ranks.getD index 0 ≤ ranks.getD other 0 then index :: other :: rest
      else other :: insertByRank ranks index rest

/-- The positions of the calls in the order in which they are started. -/
def startOrder (schedule : Schedule) : List Nat :=
  (List.range schedule.ranks.length).foldr (insertByRank schedule.ranks) []

end Schedule

/-!
## Tallies

How many calls of each id are not over yet.  Several calls may share an id, so an id has a
count and not just a mark.
-/

/-- A count for each id, one for an id. -/
structure Tally where
  counts : List (String × Nat) := []
  deriving DecidableEq, Repr

namespace Tally

/-- The count of an id; one that was never counted has none. -/
def count (tally : Tally) (id : String) : Nat :=
  match tally.counts.find? (·.1 == id) with
  | some entry => entry.2
  | none => 0

/-- One more of an id. -/
def raiseIn (id : String) : List (String × Nat) → List (String × Nat)
  | [] => [(id, 1)]
  | entry :: rest =>
      if entry.1 = id then (id, entry.2 + 1) :: rest else entry :: raiseIn id rest

/-- One less of an id; nothing falls below zero, and an id without a count gets none. -/
def lowerIn (id : String) : List (String × Nat) → List (String × Nat)
  | [] => []
  | entry :: rest =>
      if entry.1 = id then (id, entry.2 - 1) :: rest else entry :: lowerIn id rest

/-- Count one more of an id. -/
def raise (tally : Tally) (id : String) : Tally := ⟨raiseIn id tally.counts⟩

/-- Count one less of an id. -/
def lower (tally : Tally) (id : String) : Tally := ⟨lowerIn id tally.counts⟩

/-- The tally of a list of ids. -/
def ofIds (ids : List String) : Tally := ids.foldl raise {}

end Tally

end Runbook
