import Runbook.Plan.Basic
import Runbook.Text.Search
import Runbook.Json.Shape

namespace Runbook

/-!
# Steps as a model writes them

A model names the tool of each step and may name the step.  `Plan.ofSteps` gives
every step an id: its own name without the blanks around it, or else the name of
its tool; from the second step of one name on, the count is attached.
-/

/-- A step as a model writes it. -/
structure Step where
  id : Option String
  tool : String
  input : Json
  dependsOn : List String
  deriving DecidableEq

namespace Step

/-- The shape of a step. -/
def shape : Json.Shape :=
  .record "struct PlanStepSpec"
    [ ("id", .optional .text, some .null),
      ("tool", .text, none),
      ("input", .any, some .null),
      ("depends_on", .list .text, some (.arr [])) ]

/-- The strings of a list. -/
def texts (value : Option Json) : List String :=
  ((value.bind Json.items?).getD []).filterMap Json.text?

/-- The step that a value in full form holds. -/
def ofFull (value : Json) : Step :=
  { id := (value.member? "id").bind Json.text?
    tool := ((value.member? "tool").bind Json.text?).getD ""
    input := (value.member? "input").getD .null
    dependsOn := texts (value.member? "depends_on") }

/-- The name of the tool, without the blanks around it. -/
def toolName (step : Step) : String := Text.trimmed step.tool

/-- The name that the id of a step starts from. -/
def baseName (step : Step) : String :=
  match step.id with
  | none => step.toolName
  | some id => if Text.allBlank id then step.toolName else Text.trimmed id

end Step

namespace Plan

/-- The id of a step whose name came up `earlier` times before. -/
def numberedId (base : String) (earlier : Nat) : String :=
  if earlier = 0 then base else base ++ "#" ++ toString (earlier + 1)

/-- The calls of steps with what they declare, given the names that came up. -/
def callsOf (seen : List String) : List Step → Except String (List (Call × List String))
  | [] => .ok []
  | step :: rest =>
      if step.toolName.isEmpty then .error "plan step has an empty tool name"
      else do
        let id := numberedId step.baseName (seen.count step.baseName)
        let call := (Call.ofTool step.toolName step.input).withId id
        return (call, step.dependsOn) :: (← callsOf (seen ++ [step.baseName]) rest)

/-- The plan of the given steps; a step without a tool name is refused. -/
def ofSteps (steps : List Step) : Except String Plan := do
  let calls ← callsOf [] steps
  return calls.foldl
    (fun plan entry =>
      if entry.2.isEmpty then plan else plan.withDependency entry.1.id entry.2)
    ⟨calls.map (·.1), []⟩

end Plan

end Runbook
