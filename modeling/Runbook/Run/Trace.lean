import Runbook.Run.State
import Runbook.Text.Search

namespace Runbook

/-!
# The trace of a run

A record, phase by phase, of what a run did, to be read afterwards.
-/

/-- What a trace keeps of a call. -/
structure StepRecord where
  id : String
  tool : String
  ok : Bool
  output : Option String
  error : Option String
  deriving DecidableEq, Repr

namespace StepRecord

/-- How many characters of an output a trace keeps. -/
def outputLength : Nat := 500

/-- What a trace keeps of a call. -/
def ofCall (call : Call) : StepRecord :=
  { id := call.id
    tool := call.name
    ok := call.isSuccess
    output := call.result?.map (Text.preview outputLength)
    error := call.fault?.map Fault.message }

/-- The record as JSON; what there is not is left out. -/
def toJson (step : StepRecord) : Json :=
  .record <|
    [("id", .str step.id), ("tool", .str step.tool), ("ok", .bool step.ok)] ++
    (step.output.map fun text => ("output_preview", Json.str text)).toList ++
    (step.error.map fun text => ("error", Json.str text)).toList

end StepRecord

/-- One entry of a trace. -/
structure TraceEntry where
  iteration : Nat
  phase : Phase
  summary : String
  steps : List StepRecord := []
  deriving DecidableEq, Repr

namespace TraceEntry

/-- The entry for the calls of a plan. -/
def ofCalls (iteration : Nat) (calls : List Call) : TraceEntry :=
  let failed := calls.countP fun call => !call.isSuccess
  { iteration := iteration
    phase := .executing
    summary :=
      toString calls.length ++ " step(s) executed, " ++ toString failed ++ " failed"
    steps := calls.map StepRecord.ofCall }

/-- The entry as JSON; without steps there is no list of them. -/
def toJson (entry : TraceEntry) : Json :=
  .record <|
    [ ("iteration", .int entry.iteration),
      ("phase", .str entry.phase.name),
      ("summary", .str entry.summary) ] ++
    if entry.steps.isEmpty then [] else [("steps", .arr (entry.steps.map StepRecord.toJson))]

end TraceEntry

/-- The trace of a run. -/
structure Trace where
  runId : String
  objective : String
  entries : List TraceEntry := []
  isFinished : Bool := false
  deriving DecidableEq, Repr

namespace Trace

/-- Add an entry. -/
def add (trace : Trace) (entry : TraceEntry) : Trace :=
  { trace with entries := trace.entries ++ [entry] }

/-- Finish a trace. -/
def finish (trace : Trace) : Trace := { trace with isFinished := true }

/-- The objective and the entries as JSON. -/
def toJson (trace : Trace) : Json :=
  .record
    [ ("objective", .str trace.objective),
      ("entries", .arr (trace.entries.map TraceEntry.toJson)) ]

end Trace

end Runbook
