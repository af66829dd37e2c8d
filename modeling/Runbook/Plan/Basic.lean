import Runbook.Call
import Runbook.Dependency.Graph

namespace Runbook

/-!
# Plans

A plan is a list of open calls and, by id, what each of them must wait for.
-/

/-- Calls to make and what they depend on. -/
structure Plan where
  steps : List Call
  dependencies : List (String × List String) := []
  deriving DecidableEq

namespace Plan

/-- Join the dependencies of an id to those it has already. -/
def joinDependencies (id : String) (more : List String) :
    List (String × List String) → List (String × List String)
  | [] => [(id, addNew [] more)]
  | entry :: rest =>
      if entry.1 = id then (id, addNew entry.2 more) :: rest
      else entry :: joinDependencies id more rest

/-- The plan in which a step also depends on the given ids. -/
def withDependency (plan : Plan) (id : String) (dependsOn : List String) : Plan :=
  { plan with dependencies := joinDependencies id dependsOn plan.dependencies }

/-- The ids of the steps in order. -/
def stepIds (plan : Plan) : List String := plan.steps.map (·.id)

/-- Whether there is nothing to do. -/
def isEmpty (plan : Plan) : Bool := plan.steps.isEmpty

/-- The dependencies as a graph over the steps. -/
def graph (plan : Plan) : DependencyGraph :=
  plan.steps.foldl (fun graph step => graph.addNode step.id)
    (.ofTable plan.dependencies)

end Plan

end Runbook
