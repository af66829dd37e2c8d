import Runbook.Rehearsal.Operation
import Runbook.Rehearsal.Studio

namespace Runbook.Rehearsal

/-!
# Scripts in writing

How faults, tools, operations and the turns of a model are written as JSON.  A member
that is missing, or of the wrong kind, takes its default.
-/

namespace Written

/-- The text of a member, empty if it is missing. -/
def textAt (value : Json) (key : String) : String := value.textAt key

/-- The truth of a member, or a default. -/
def truthAt (value : Json) (key : String) (default : Bool) : Bool :=
  ((value.member? key).bind Json.bool?).getD default

/-- The items of a member, none if it is missing. -/
def itemsAt (value : Json) (key : String) : List Json :=
  ((value.member? key).bind Json.items?).getD []

/-- A member that counts milliseconds. -/
def millisAt (value : Json) (key : String) : Duration :=
  .ofMillis (ToolStep.natural value key 0)

/-- The name of the kind of a fault. -/
def kindOf : Fault → String
  | .cyclicDependency _ => "CyclicDependency"
  | .toolFailed _ _ => "ToolExecution"
  | .toolTimeout _ => "ToolTimeout"
  | .toolNotFound _ => "ToolNotFound"
  | .circuitOpen _ => "CircuitOpen"
  | .retriesExhausted _ _ => "RetriesExhausted"
  | .cancelled => "Cancelled"
  | .deadlineExceeded => "DeadlineExceeded"
  | .iterationLimit _ => "IterationLimitExceeded"
  | .planner _ => "Planner"
  | .replanner _ => "Replanner"
  | .aborted _ => "Aborted"
  | .model _ => "Model"
  | .skipped _ _ => "Skipped"
  | .config _ => "Config"
  | .internal _ => "Internal"

/-- How deep the causes of a fault may nest. -/
def causeDepth : Nat := 200

/-- The fault that a value describes, with causes up to a depth. -/
def faultWithin : (depth : Nat) → Json → Fault
  | 0, _ => .internal ""
  | depth + 1, value =>
      let text := textAt value "text"
      match textAt value "kind" with
      | "CyclicDependency" => .cyclicDependency (textAt value "tool")
      | "ToolExecution" => .toolFailed (textAt value "tool") text
      | "ToolTimeout" => .toolTimeout text
      | "ToolNotFound" => .toolNotFound text
      | "CircuitOpen" => .circuitOpen (textAt value "name")
      | "RetriesExhausted" =>
          .retriesExhausted (ToolStep.natural value "attempts" 0)
            (faultWithin depth (value.memberAt "source"))
      | "Cancelled" => .cancelled
      | "DeadlineExceeded" => .deadlineExceeded
      | "IterationLimitExceeded" => .iterationLimit (ToolStep.natural value "limit" 0)
      | "Planner" => .planner text
      | "Replanner" => .replanner text
      | "Aborted" => .aborted text
      | "Model" => .model text
      | "Skipped" => .skipped (textAt value "tool") (textAt value "reason")
      | "Config" => .config text
      | _ => .internal text

/-- The fault that a value describes. -/
def fault (value : Json) : Fault := faultWithin causeDepth value

/-- The fault that a value ends in, if it does. -/
def fault? (value : Json) : Option Fault :=
  ((value.member? "err").filter Json.isObject).map fault

/-- The result that a value describes: a fault, or a text. -/
def result (value : Json) : Except Fault String :=
  match fault? value with
  | some fault => .error fault
  | none => .ok (textAt value "ok")

/-- The step of a scripted operation. -/
def operationStep (value : Json) : OperationStep :=
  { delay := millisAt value "delay_ms"
    cancels := truthAt value "cancel" false
    result := result value }

/-- What is known about a scripted tool. -/
def metadata (value : Json) : ToolMetadata :=
  { category := ((value.textAt? "category").bind ToolCategory.ofName?).getD .custom
    description := textAt value "meta_description"
    enabled := truthAt value "enabled" true
    agentKinds :=
      match value.member? "agent_types" with
      | some (.arr kinds) => kinds.filterMap fun kind => kind.text?.bind AgentKind.ofName?
      | _ => [.all] }

/-- A scripted tool with its number. -/
def tool (value : Json) (number : Nat) : ScriptedTool :=
  { name := textAt value "name"
    description := (value.textAt? "description").getD "sim"
    parameters := (value.member? "schema").getD Tool.noParameters
    behaviour := ⟨number, (itemsAt value "steps").map ToolStep.ofJson⟩ }

/-- Register scripted tools one after the other; one that is refused is left out. -/
def catalogue (tools : List Json) : Catalogue ToolScript :=
  tools.zipIdx.foldl (fun catalogue numbered =>
    let value := numbered.1
    (catalogue.register (textAt value "as") (tool value numbered.2)
      (metadata value)).toOption.getD catalogue) {}

/-- A piece of a streamed answer. -/
def piece (value : Json) : Piece :=
  { delay := millisAt value "delay_ms"
    content :=
      match value.textAt? "err" with
      | some reason => .error reason
      | none => .ok (textAt value "ok") }

/-- A turn of a scripted model. -/
def modelTurn (value : Json) : ModelTurn :=
  { delay := millisAt value "delay_ms"
    act :=
      match value.textAt? "error", value.member? "chunks" with
      | some reason, _ => .reply (.error reason)
      | none, some (.arr pieces) => .pieces (pieces.map piece)
      | none, _ => .reply (.ok (textAt value "reply")) }

end Written

end Runbook.Rehearsal
