import Runbook.Duration
import Runbook.Toolbox.Input

namespace Runbook.Toolbox.Time

/-!
# The tool that tells the time

It gives the present in seconds, milliseconds and nanoseconds since 1970, and as a
date with a time.
-/

/-- The input: a note, which is ignored. -/
def form : InputForm :=
  ⟨"CurrentTimeInput", [⟨"note", "调用方可附带的说明，忽略", .text, true⟩]⟩

/-- A moment of the clock: nanoseconds since 1970, and how it is written. -/
structure Moment where
  nanos : Nat
  /-- The moment in universal time. -/
  universal : String
  /-- The moment in local time. -/
  localTime : String
  deriving DecidableEq, Repr

/-- What is said of a moment. -/
def answer (moment : Moment) : Json :=
  .record
    [ ("success", .bool true),
      ("unix_seconds", .int (moment.nanos / Duration.perSecond)),
      ("unix_millis", .int (moment.nanos / Duration.perMilli)),
      ("unix_nanos", .int moment.nanos),
      ("utc", .str moment.universal),
      ("local", .str moment.localTime) ]

/-- Tell the time. -/
def run (moment : Moment) (input : Json) : ToolResult := do
  let _ ← form.parse input
  return (answer moment).compact

end Runbook.Toolbox.Time
