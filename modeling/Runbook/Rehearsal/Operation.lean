import Runbook.Rehearsal.World

namespace Runbook.Rehearsal

/-!
# Rehearsing a retried operation

A scripted operation takes some time, may cancel the context it runs under, and
ends with the result of its step.  It runs under a retry policy, alone or behind the
breaker of a key.
-/

/-- What one attempt of a scripted operation does. -/
structure OperationStep where
  delay : Duration := 0
  cancels : Bool := false
  result : Except Fault String := .ok ""

/-- A world with the number of attempts made so far. -/
abbrev Counted := World × Nat

namespace OperationStep

/-- The step of an attempt; attempts count from one, and the last step repeats. -/
def ofScript (script : List OperationStep) (attempt : Nat) : OperationStep :=
  match script[attempt - 1]? with
  | some step => step
  | none => script.getLast?.getD {}

/-- Do what a step says. -/
def perform (context : Nat) (step : OperationStep) (world : World) : Ending String × World :=
  let world := if step.delay = 0 then world else world.goTo (world.timer step.delay)
  let world := if step.cancels then world.cancel context world.now else world
  (.finished step.result, world)

end OperationStep

/-- What a scripted operation meets under a context. -/
def scriptedSurroundings (setup : Setup) (context : Nat) (script : List OperationStep) :
    Surroundings Counted String where
  look state := (state.1.ended context, state)
  rest duration state :=
    let (fault, world) := state.1.rest setup context duration
    (fault, (world, state.2))
  attempt number state :=
    let (ending, world) := (OperationStep.ofScript script number).perform context state.1
    (ending, (world, state.2 + 1))

/-- The gate of a key in a world with a count. -/
def countedGate (key : String) : Gate Counted where
  ask state :=
    let (fault, world) := (World.gate key).ask state.1
    (fault, (world, state.2))
  succeed state := ((World.gate key).succeed state.1, state.2)
  fail state :=
    let (breaksDown, world) := (World.gate key).fail state.1
    (breaksDown, (world, state.2))

namespace World

/-- Run a scripted operation under a retry policy: its ending, the number of attempts,
and the world. -/
def retried (setup : Setup) (context : Nat) (script : List OperationStep) (world : World) :
    Ending String × Nat × World :=
  let (ending, world, attempts) :=
    Retry.run setup.policy (scriptedSurroundings setup context script) (world, 0)
  (ending, attempts, world)

/-- Run a scripted operation behind the breaker of a key. -/
def guarded (setup : Setup) (context : Nat) (key : String) (script : List OperationStep)
    (world : World) : Ending String × Nat × World :=
  let (ending, world, attempts) :=
    (countedGate key).run setup.policy (scriptedSurroundings setup context script) (world, 0)
  (ending, attempts, world)

end World

end Runbook.Rehearsal
