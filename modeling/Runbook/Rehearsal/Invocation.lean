import Runbook.Rehearsal.World

namespace Runbook.Rehearsal

/-!
# Rehearsing one invocation

An invocation goes on until it has to wait: for the end of an attempt that is under
way, or for the time between two attempts.  `advance` takes it as far as it gets at
the present instant; whoever waits for it lets the clock move and calls `advance`
again.
-/

/-- One invocation of a scripted tool: under which name, which tool, on what. -/
structure Invocation where
  name : String
  tool : ScriptedTool
  input : Json

namespace Invocation

/-- The mark by which the log tells invocations apart. -/
def tag (invocation : Invocation) : String :=
  ((invocation.input.member? "tag").bind Json.text?).getD ""

end Invocation

/-- An attempt that is under way. -/
structure Flight where
  step : ToolStep
  /-- When the delay of the step is over; `none` if the attempt never ends. -/
  readyAt : Option Instant
  /-- When the attempt has taken too long. -/
  limit : Instant
  deriving DecidableEq, Repr

/-- What an invocation waits for. -/
inductive Wait where
  | flight (flight : Flight)
  | rest (until_ : Instant)
  deriving DecidableEq, Repr

/-- The next instant at which a wait may be over. -/
def Wait.next : Wait → Instant
  | .flight current => (earliest current.readyAt (some current.limit)).getD current.limit
  | .rest until_ => until_

namespace World

/-- Begin an attempt; `none` if the tool breaks down before it runs. -/
def beginAttempt (setup : Setup) (invocation : Invocation) (world : World) :
    Option Flight × World :=
  let script := invocation.tool.behaviour
  let step := script.stepFor invocation.input (world.invocationCount script.number)
  let world := world.countInvocation script.number
  if step.act = .breakDown then (none, world)
  else
    (some ⟨step, some (world.now + step.delay), world.timer setup.toolTimeout⟩,
      world.note .started invocation.tool.name invocation.tag)

/-- Look at an attempt that is under way: what came of it, or how it goes on.  The end
of the context comes first, then that of the tool, then the time limit. -/
def lookAtFlight (context : Nat) (invocation : Invocation) (flight : Flight)
    (world : World) : (AttemptOutcome ⊕ Flight) × World :=
  let noteEvent (event : LogEvent) (world : World) :=
    world.note event invocation.tool.name invocation.tag
  match world.done context with
  | some fault => (.inl (.interrupted fault), noteEvent .dropped world)
  | none =>
      let isReady := ContextTree.hasCome world.now flight.readyAt
      let world :=
        if isReady && flight.step.cancels then world.cancel context world.now else world
      match isReady, flight.step.outcome? invocation.tool.name invocation.input with
      | true, some outcome => (.inl outcome, noteEvent .ended world)
      | _, _ =>
          if flight.limit ≤ world.now then (.inl .timedOut, noteEvent .dropped world)
          else
            (.inr { flight with readyAt := if isReady then none else flight.readyAt }, world)

end World

/-- Take an invocation as far as it gets at the present instant. -/
def advance (setup : Setup) (context : Nat) (invocation : Invocation) :
    (fuel : Nat) → Stage String → Option Wait → World → Stage String × Option Wait × World
  | 0, stage, wait, world => (stage, wait, world)
  | _, .ended ending, _, world => (.ended ending, none, world)
  | fuel + 1, .attempting attempt, some (.flight flight), world =>
      match world.lookAtFlight context invocation flight with
      | (.inr flight, world) => (.attempting attempt, some (.flight flight), world)
      | (.inl outcome, world) =>
          let stage := Stage.afterAttempt setup.policy attempt (outcome.ending invocation.name)
          advance setup context invocation fuel stage none world
  | fuel + 1, .attempting attempt, _, world =>
      match world.beginAttempt setup invocation with
      | (none, world) => (.ended .brokeDown, none, world)
      | (some flight, world) =>
          advance setup context invocation fuel (.attempting attempt)
            (some (.flight flight)) world
  | fuel + 1, .resting attempt, some (.rest until_), world =>
      match world.done context with
      | some fault => (.ended (.fault fault), none, world)
      | none =>
          if until_ ≤ world.now then
            advance setup context invocation fuel (.attempting attempt) none world
          else (.resting attempt, some (.rest until_), world)
  | fuel + 1, .resting attempt, _, world =>
      match world.done context with
      | some fault => (.ended (.fault fault), none, world)
      | none =>
          let delay := setup.policy.delayBefore attempt
          if setup.sleeps then
            advance setup context invocation fuel (.resting attempt)
              (some (.rest (world.timer delay))) world
          else
            let world := world.noteRest context delay
            advance setup context invocation fuel (.enter attempt (world.ended context))
              none world

/-- Steps that suffice to advance an invocation. -/
def advanceFuel (setup : Setup) : Nat := 4 * setup.policy.attempts + 8

/-- How an invocation begins: refused, or at a stage. -/
inductive Opening where
  | refused (fault : Fault)
  | admitted (invocation : Invocation) (stage : Stage String)

namespace World

/-- Look a tool up and ask its breaker. -/
def openInvocation (context : Nat) (name : String) (input : Json) (world : World) :
    Opening × World :=
  match world.catalogue.get? name with
  | none => (.refused (.toolNotFound name), world)
  | some tool =>
      match (gate name).ask world with
      | (some fault, world) => (.refused fault, world)
      | (none, world) =>
          (.admitted ⟨name, tool, input⟩ (.enter 1 (world.ended context)), world)

end World

/-- Carry an invocation on until it is over, letting the clock move. -/
def carryThrough (setup : Setup) (context : Nat) (invocation : Invocation) :
    (fuel : Nat) → Stage String → Option Wait → World → Ending String × World
  | 0, _, _, world => (.fault (.internal "invocation did not end"), world)
  | fuel + 1, stage, wait, world =>
      match advance setup context invocation (advanceFuel setup) stage wait world with
      | (.ended ending, _, world) => (ending, world)
      | (stage, wait, world) =>
          let next := earliest (wait.map Wait.next) (world.contextEnd? context)
          match next with
          | none => (.fault (.internal "invocation did not end"), world)
          | some instant =>
              carryThrough setup context invocation fuel stage wait (world.goTo instant)

namespace World

/-- Let a tool run once, with nothing around it. -/
def invokeOnce (world : World) (tool : ScriptedTool) (input : Json) :
    AttemptOutcome × World :=
  let script := tool.behaviour
  let step := script.stepFor input (world.invocationCount script.number)
  let world := world.countInvocation script.number
  ((step.outcome? tool.name input).getD .timedOut, world.goTo (world.now + step.delay))

end World

/-- Invoke a tool and wait for its ending. -/
def invoke (setup : Setup) (context : Nat) (name : String) (input : Json) (world : World) :
    Ending String × World :=
  match world.openInvocation context name input with
  | (.refused fault, world) => (.fault fault, world)
  | (.admitted invocation stage, world) =>
      let (ending, world) :=
        carryThrough setup context invocation (4 * setup.policy.attempts + 8) stage none world
      (World.gate name).report ending world

end Runbook.Rehearsal
