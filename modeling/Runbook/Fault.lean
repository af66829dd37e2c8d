namespace Runbook

/-!
# Faults

What can go wrong in a run.  A fault of a tool stays with the call that met it;
a fault of the run itself ends the run.  `Fault.message` gives each its words.
-/

/-- What can go wrong in a run. -/
inductive Fault where
  /-- The dependencies of a batch have a cycle through this name. -/
  | cyclicDependency (name : String)
  /-- A tool ran and reported a failure. -/
  | toolFailed (tool : String) (reason : String)
  /-- One attempt of a tool took too long. -/
  | toolTimeout (tool : String)
  /-- No tool of this name is registered and enabled. -/
  | toolNotFound (tool : String)
  /-- The breaker of this name turned the call away. -/
  | circuitOpen (name : String)
  /-- Every attempt failed, the last one with this cause. -/
  | retriesExhausted (attempts : Nat) (cause : Fault)
  /-- The context was cancelled. -/
  | cancelled
  /-- The deadline of the context passed. -/
  | deadlineExceeded
  /-- The run took as many iterations as it may. -/
  | iterationLimit (limit : Nat)
  /-- No plan could be made. -/
  | planner (reason : String)
  /-- No decision could be made. -/
  | replanner (reason : String)
  /-- The run was given up on purpose. -/
  | aborted (reason : String)
  /-- The model reported a failure. -/
  | model (reason : String)
  /-- The call was not carried out because another one failed. -/
  | skipped (tool : String) (reason : String)
  /-- The configuration is unusable. -/
  | config (reason : String)
  /-- An assumption of the library did not hold. -/
  | internal (reason : String)
  deriving DecidableEq, Repr, Inhabited

namespace Fault

/-- The words for a fault. -/
def message : Fault → String
  | cyclicDependency name => "cyclic dependency detected at " ++ name
  | toolFailed tool reason => "tool '" ++ tool ++ "' failed: " ++ reason
  | toolTimeout tool => "tool timeout: " ++ tool
  | toolNotFound tool => "tool not found: " ++ tool
  | circuitOpen name => "circuit breaker '" ++ name ++ "' is open"
  | retriesExhausted attempts cause =>
      "after " ++ toString attempts ++ " attempts: " ++ cause.message
  | cancelled => "context canceled"
  | deadlineExceeded => "context deadline exceeded"
  | iterationLimit limit => "iteration limit " ++ toString limit ++ " exceeded"
  | planner reason => "planner error: " ++ reason
  | replanner reason => "replanner error: " ++ reason
  | aborted reason => "aborted: " ++ reason
  | model reason => "model error: " ++ reason
  | skipped tool reason => "tool '" ++ tool ++ "' skipped: " ++ reason
  | config reason => "config error: " ++ reason
  | internal reason => "internal error: " ++ reason

/-- The context ended: such a fault is never retried, and breakers do not count it. -/
def endsContext : Fault → Bool
  | cancelled => true
  | deadlineExceeded => true
  | _ => false

/-- Another attempt may help. -/
def isRetryable : Fault → Bool
  | toolFailed _ _ => true
  | toolTimeout _ => true
  | model _ => true
  | _ => false

/-- The fault of the last attempt, below any number of retries. -/
def rootCause : Fault → Fault
  | retriesExhausted _ cause => cause.rootCause
  | fault => fault

end Fault

end Runbook
