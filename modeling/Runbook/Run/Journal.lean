import Runbook.Plan.Basic
import Runbook.Run.Event
import Runbook.Run.Trace

namespace Runbook

/-!
# The journal of a run

Everything that a run keeps of itself: its state, its trace, and the events that it
told.  Each function below is one thing that the run writes down.
-/

/-- What a run has written down so far. -/
structure Journal where
  state : RunState
  trace : Trace
  events : List Event := []
  deriving DecidableEq

namespace Journal

/-- The journal of a run that has not begun. -/
def start (runId objective : String) : Journal :=
  { state := { objective := objective }
    trace := { runId := runId, objective := objective } }

/-- Tell an event. -/
def tell (journal : Journal) (event : Event) : Journal :=
  { journal with events := journal.events ++ [event] }

/-- Tell several events. -/
def tellAll (journal : Journal) (events : List Event) : Journal :=
  { journal with events := journal.events ++ events }

/-- Add an entry to the trace, under the present iteration. -/
def note (journal : Journal) (phase : Phase) (summary : String) : Journal :=
  { journal with
    trace :=
      journal.trace.add
        { iteration := journal.state.iteration, phase := phase, summary := summary } }

/-- Begin the next iteration. -/
def nextIteration (journal : Journal) : Journal :=
  { journal with state := journal.state.nextIteration }

/-- Enter a phase, and tell so if it is another one or the first of an iteration. -/
def enter (journal : Journal) (next : Phase) : Except Fault Journal :=
  match journal.state.enter next with
  | .error fault => .error fault
  | .ok state =>
      let changed := journal.state.phase != next || next == .planning
      let journal := { journal with state := state }
      .ok <|
        if changed then journal.tell (.phaseChanged state.iteration next) else journal

/-- Write down the plan of an iteration. -/
def adopt (journal : Journal) (plan : Plan) (source : PlanSource) : Journal :=
  let summary :=
    toString plan.steps.length ++ " step(s) from " ++ source.name ++ ": " ++
      ", ".intercalate plan.stepIds
  (journal.note .planning summary).tell
    (.planReady journal.state.iteration source plan.stepIds)

/-- Write down the results of an iteration. -/
def addResults (journal : Journal) (results : List Call) : Journal :=
  let iteration := journal.state.iteration
  let journal := journal.tellAll (results.map (Event.ofCall iteration))
  { journal with
    state := journal.state.addResults results
    trace := journal.trace.add (.ofCalls iteration results) }

/-- Write down that the run ends in a phase, unless it has ended. -/
def close (journal : Journal) (phase : Phase) (summary : String) : Journal :=
  if journal.state.isTerminal then journal
  else
    match journal.enter phase with
    | .error _ => journal
    | .ok journal => journal.note phase summary

/-- Finish the trace. -/
def finish (journal : Journal) : Journal :=
  { journal with trace := journal.trace.finish }

end Journal

end Runbook
