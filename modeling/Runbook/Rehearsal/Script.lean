import Runbook.Json.Printer
import Runbook.Tool.Attempt
import Runbook.Tool.Catalogue
import Runbook.Duration

namespace Runbook.Rehearsal

/-!
# Scripted tools

A rehearsal runs calls against tools that follow a script: each invocation takes
some time, may cancel the context it runs under, and then ends as its step says.
A call may carry the step it wants in its input.
-/

/-- How a step ends. -/
inductive Act where
  | ok
  | err
  | panic
  | echo
  | hang
  | breakDown
  deriving DecidableEq, Repr, Inhabited

namespace Act

/-- The name of an act in a script. -/
def name : Act → String
  | ok => "ok"
  | err => "err"
  | panic => "panic"
  | echo => "echo"
  | hang => "hang"
  | breakDown => "panic_sync"

/-- The act of a name; an unknown one is `ok`. -/
def ofName (name : String) : Act :=
  ([ok, err, panic, echo, hang, breakDown].find? (·.name == name)).getD ok

end Act

/-- What one invocation of a scripted tool does. -/
structure ToolStep where
  delay : Duration := 0
  /-- Whether the context is cancelled after the delay. -/
  cancels : Bool := false
  act : Act := .ok
  text : Option String := none
  /-- How many times the text is written. -/
  times : Nat := 1
  deriving DecidableEq, Repr, Inhabited

namespace ToolStep

/-- A natural number among the members of an object. -/
def natural (value : Json) (key : String) (default : Nat) : Nat :=
  match (value.member? key).bind Json.int? with
  | some number => if 0 ≤ number then number.toNat else default
  | none => default

/-- The step that an object describes; what is missing takes its default. -/
def ofJson (value : Json) : ToolStep :=
  { delay := .ofMillis (natural value "delay_ms" 0)
    cancels := ((value.member? "cancel").bind Json.bool?).getD false
    act := .ofName (((value.member? "do").bind Json.text?).getD "ok")
    text := (value.member? "text").bind Json.text?
    times := natural value "repeat" 1 }

end ToolStep

/-- The script of a tool, with a number that tells it from every other tool. -/
structure ToolScript where
  number : Nat
  steps : List ToolStep
  deriving DecidableEq, Repr, Inhabited

/-- A tool with a script. -/
abbrev ScriptedTool := Tool ToolScript

namespace ToolScript

/-- The step of an invocation; invocations count from zero.  A step in the input
comes first, then that of the script, whose last step repeats. -/
def stepFor (script : ToolScript) (input : Json) (invocation : Nat) : ToolStep :=
  match input.member? "do" with
  | some (.obj members) => .ofJson (.obj members)
  | _ =>
      match script.steps[invocation]? with
      | some step => step
      | none => script.steps.getLast?.getD {}

end ToolScript

namespace ToolStep

/-- The text of a step of the tool with the given name. -/
def textOf (step : ToolStep) (tool : String) : String :=
  let once := step.text.getD (tool ++ " " ++ step.act.name)
  String.join (List.replicate step.times once)

/-- What comes of a step that runs to its end; `none` for one that never ends. -/
def outcome? (step : ToolStep) (tool : String) (input : Json) : Option AttemptOutcome :=
  match step.act with
  | .ok => some (.text (step.textOf tool))
  | .err => some (.failed (step.textOf tool))
  | .panic => some .panicked
  | .echo => some (.text input.compact)
  | .hang => none
  | .breakDown => some .brokeDown

end ToolStep

/-- What a rehearsal notes of an invocation. -/
inductive LogEvent where
  | ended
  | dropped
  | started
  deriving DecidableEq, Repr

namespace LogEvent

/-- The name of an event. -/
def name : LogEvent → String
  | ended => "end"
  | dropped => "dropped"
  | started => "start"

/-- The place of an event among those of one instant. -/
def rank : LogEvent → Nat
  | ended => 0
  | dropped => 1
  | started => 2

end LogEvent

/-- One row of the log of a rehearsal. -/
structure LogRow where
  at_ : Instant
  event : LogEvent
  tool : String
  tag : String
  deriving DecidableEq, Repr

namespace LogRow

/-- The order of rows: by time, then by event, then by tool and tag. -/
def before (a b : LogRow) : Bool :=
  if a.at_ != b.at_ then a.at_ < b.at_
  else if a.event != b.event then a.event.rank < b.event.rank
  else if a.tool != b.tool then a.tool < b.tool
  else a.tag < b.tag

/-- Put a row at its place. -/
def insert (row : LogRow) : List LogRow → List LogRow
  | [] => [row]
  | other :: rest =>
      if other.before row then other :: insert row rest else row :: other :: rest

/-- Rows in order. -/
def sort (rows : List LogRow) : List LogRow := rows.foldr insert []

end LogRow

end Runbook.Rehearsal
