import Runbook.Run.State
import Runbook.Text.Search

namespace Runbook

/-!
# Events of a run

What a run tells whoever watches it, in the order in which it happens.
-/

/-- Where a plan comes from. -/
inductive PlanSource where
  | planner
  | replanner
  deriving DecidableEq, Repr

namespace PlanSource

/-- The name of a source. -/
def name : PlanSource → String
  | planner => "planner"
  | replanner => "replanner"

end PlanSource

/-- What a run tells. -/
inductive Event where
  | phaseChanged (iteration : Nat) (phase : Phase)
  | planReady (iteration : Nat) (source : PlanSource) (steps : List String)
  | stepFinished (iteration : Nat) (id tool : String) (ok : Bool) (preview : String)
  | answerChunk (text : String)
  | done (answer : String)
  | failed (reason : String)
  deriving DecidableEq, Repr

namespace Event

/-- How many characters of an output an event shows. -/
def previewLength : Nat := 200

/-- What a settled call has to show: its text, or its fault in words. -/
def shown (call : Call) : String :=
  match call.outcome with
  | some (.ok text) => text
  | some (.error fault) => fault.message
  | none => ""

/-- The event that a call is over. -/
def ofCall (iteration : Nat) (call : Call) : Event :=
  stepFinished iteration call.id call.name call.isSuccess
    (Text.preview previewLength (shown call))

/-- The event as JSON, with its kind as `type`. -/
def toJson : Event → Json
  | phaseChanged iteration phase =>
      .record
        [ ("type", .str "phase_changed"), ("iteration", .int iteration),
          ("phase", .str phase.name) ]
  | planReady iteration source steps =>
      .record
        [ ("type", .str "plan_ready"), ("iteration", .int iteration),
          ("source", .str source.name), ("steps", .arr (steps.map .str)) ]
  | stepFinished iteration id tool ok preview =>
      .record
        [ ("type", .str "step_finished"), ("iteration", .int iteration),
          ("id", .str id), ("tool", .str tool), ("ok", .bool ok),
          ("preview", .str preview) ]
  | answerChunk text => .record [("type", .str "answer_chunk"), ("text", .str text)]
  | done answer => .record [("type", .str "done"), ("answer", .str answer)]
  | failed reason => .record [("type", .str "failed"), ("reason", .str reason)]

end Event

end Runbook
