import Runbook.Ending

namespace Runbook

/-!
# Attempts of a tool

One attempt of a tool ends in one of several ways, and each of them is a result of
the attempt, but for one: a tool may break down before it even begins to run, and
that is no result at all.
-/

/-- What comes of one attempt of a tool. -/
inductive AttemptOutcome where
  /-- The tool returned a text. -/
  | text (text : String)
  /-- The tool returned an error. -/
  | failed (reason : String)
  /-- The tool broke down while it ran. -/
  | panicked
  /-- The attempt took too long and was abandoned. -/
  | timedOut
  /-- The context ended and the attempt was abandoned. -/
  | interrupted (fault : Fault)
  /-- The tool broke down before it began to run. -/
  | brokeDown
  deriving DecidableEq, Repr

namespace AttemptOutcome

/-- The ending of an attempt of a tool. -/
def ending (tool : String) : AttemptOutcome → Ending String
  | .text answer => .value answer
  | .failed reason => .fault (.toolFailed tool reason)
  | .panicked => .fault (.toolFailed tool "tool panicked")
  | .timedOut => .fault (.toolTimeout tool)
  | .interrupted fault => .fault fault
  | .brokeDown => .brokeDown

end AttemptOutcome

end Runbook
