namespace Runbook

/-!
# Phases of a run

A run plans, carries the plan out, reviews the results, and either plans again or
ends.  It can fail at any point before it has ended, and what has ended stays so.
-/

/-- The phase of a run. -/
inductive Phase where
  | planning
  | executing
  | replanning
  | done
  | failed
  deriving DecidableEq, Repr

namespace Phase

/-- The name of a phase. -/
def name : Phase → String
  | planning => "planning"
  | executing => "executing"
  | replanning => "replanning"
  | done => "done"
  | failed => "failed"

/-- Every phase. -/
def all : List Phase := [planning, executing, replanning, done, failed]

/-- The phase of a name. -/
def ofName? (name : String) : Option Phase := all.find? (·.name == name)

/-- Whether a run in this phase has ended. -/
def isTerminal : Phase → Bool
  | done => true
  | failed => true
  | _ => false

/-- Whether the second phase may follow the first. -/
def mayLeadTo : Phase → Phase → Bool
  | done, _ => false
  | failed, _ => false
  | _, failed => true
  | planning, executing => true
  | executing, replanning => true
  | replanning, planning => true
  | replanning, done => true
  | _, _ => false

end Phase

end Runbook
