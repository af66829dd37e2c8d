import Runbook.Model.Access
import Runbook.Plan.Prompt
import Runbook.Plan.Reply

namespace Runbook

/-!
# Planning with a model

A model is told the tools and the objective and replies with a plan.  A plan without
steps counts as none.  Whatever goes wrong is a fault of planning, but the end of
the context stays what it is.
-/

namespace Fault

/-- A fault within a stage of a run, as a fault of that stage; the end of a context
stays what it is. -/
def inStage (stage : String → Fault) (fault : Fault) : Fault :=
  if fault.endsContext then fault else stage fault.message

end Fault

namespace Planning

/-- The fault of a plan without steps. -/
def emptyPlan : Fault := .planner "planner returned an empty plan"

/-- The plan in a reply. -/
def planOf (reply : String) : Except Fault Plan :=
  match Plan.ofReply reply with
  | .error reason => .error (.planner reason)
  | .ok plan => if plan.isEmpty then .error emptyPlan else .ok plan

/-- What follows from asking for a plan. -/
def ending : Ending String → Ending Plan
  | .brokeDown => .brokeDown
  | .finished (.error fault) => .fault (fault.inStage .planner)
  | .finished (.ok reply) => .finished (planOf reply)

variable {σ : Type}

/-- Ask a model for a plan, given what the tools are and every result so far. -/
def plan (access : ModelAccess σ) (policy : RetryPolicy) (tools objective : String)
    (results : List Call) (state : σ) : Ending Plan × σ :=
  let conversation := Prompt.conversation (Prompt.planner tools) objective results
  let (reply, state) := access.ask policy conversation state
  (ending reply, state)

end Planning

end Runbook
