import Runbook.Call
import Runbook.Run.Phase

namespace Runbook

/-!
# The state of a run

What a run is for and how far it has come.  Results are only ever added.
-/

/-- How far a run has come. -/
structure RunState where
  objective : String
  results : List Call := []
  iteration : Nat := 0
  phase : Phase := .planning
  deriving DecidableEq

namespace Call

/-- The call as JSON: a result or a fault in words, whichever it has. -/
def toJson (call : Call) : Json :=
  .record <|
    [ ("id", .str call.id),
      ("name", .str call.name),
      ("input", call.input),
      ("done", .bool call.isDone) ] ++
    (call.result?.map fun text => ("result", Json.str text)).toList ++
    (call.fault?.map fun fault => ("error", Json.str fault.message)).toList

end Call

namespace RunState

/-- Whether the run has ended. -/
def isTerminal (state : RunState) : Bool := state.phase.isTerminal

/-- Begin the next iteration. -/
def nextIteration (state : RunState) : RunState :=
  { state with iteration := state.iteration + 1 }

/-- Add results. -/
def addResults (state : RunState) (results : List Call) : RunState :=
  { state with results := state.results ++ results }

/-- Enter a phase.  A run stays in a phase that has not ended it for as often as it
likes; any other step has to be allowed. -/
def enter (state : RunState) (next : Phase) : Except Fault RunState :=
  if state.phase = next ∧ !next.isTerminal then .ok state
  else if state.phase.mayLeadTo next then .ok { state with phase := next }
  else
    .error (.internal
      ("illegal phase transition " ++ state.phase.name ++ " -> " ++ next.name))

/-- The state as JSON. -/
def toJson (state : RunState) : Json :=
  .record
    [ ("objective", .str state.objective),
      ("completed_results", .arr (state.results.map Call.toJson)),
      ("iteration_count", .int state.iteration),
      ("phase", .str state.phase.name) ]

end RunState

end Runbook
