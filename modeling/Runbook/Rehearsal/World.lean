import Runbook.Batch.Execution
import Runbook.Breaker.Roster
import Runbook.Context
import Runbook.Race
import Runbook.Rehearsal.Script

namespace Runbook.Rehearsal

/-!
# The world of a rehearsal

A rehearsal has a clock that moves only when everyone waits, and then to the next
instant at which somebody goes on.  Timers are exact to the millisecond: a shorter
rest of a wait counts as a whole one.  Waits between attempts are either slept
through or only noted.
-/

/-- What does not change during a rehearsal. -/
structure Setup where
  policy : RetryPolicy := {}
  /-- Whether waits between attempts take time. -/
  sleeps : Bool := false
  toolTimeout : Duration := .ofSeconds 30
  batch : BatchConfig := {}

/-- Everything that changes during a rehearsal of tools. -/
structure World where
  now : Instant := 0
  /-- The clock that the breakers read. -/
  breakerClock : Instant := 0
  tree : ContextTree := {}
  roster : Roster := {}
  catalogue : Catalogue ToolScript := {}
  /-- How often each scripted tool was invoked, by its number. -/
  invocations : List (Nat × Nat) := []
  log : List LogRow := []
  /-- The waits that were asked for and only noted. -/
  rests : List Duration := []
  /-- The count of the wait on which the context is cancelled. -/
  cancelOnRest : Option Nat := none

namespace World

/-- Why a context has ended by now, if it has. -/
def ended (world : World) (context : Nat) : Option Fault :=
  world.tree.ended context world.now

/-- What a wait for the end of a context gives now, if it is over. -/
def done (world : World) (context : Nat) : Option Fault :=
  world.tree.done? context world.now

/-- A wait for the end of a context is over when the context has ended, for the same reason. -/
theorem done_eq_ended (world : World) (context : Nat) : world.done context = world.ended context :=
  world.tree.done?_eq_ended context world.now

/-- Add a context without a parent; its position, and the world. -/
def newContext (world : World) : Nat × World :=
  (world.tree.size, { world with tree := world.tree.root })

/-- Cancel a context from an instant on. -/
def cancel (world : World) (context : Nat) (from_ : Instant) : World :=
  { world with tree := world.tree.cancel context from_ }

/-- Note an event of an invocation. -/
def note (world : World) (event : LogEvent) (tool tag : String) : World :=
  { world with log := world.log ++ [⟨world.now, event, tool, tag⟩] }

/-- The instant at which a timer of a given length goes off. -/
def timer (world : World) (duration : Duration) : Instant :=
  Duration.ofMillis (Duration.millisUp (world.now + duration))

/-- Let the clock go to an instant; it never goes back. -/
def goTo (world : World) (instant : Instant) : World :=
  { world with now := max world.now instant }

/-- The instant at which a context that has not ended will end. -/
def contextEnd? (world : World) (context : Nat) : Option Instant :=
  world.tree.endsAt? context

/-- Let time pass until an instant, or until a context ends if that comes first. -/
def pass (world : World) (context : Nat) (instant : Instant) : World :=
  match world.contextEnd? context with
  | some limit => world.goTo (min limit instant)
  | none => world.goTo instant

/-- Wait until an instant, unless the wait for the end of a context is over first. -/
def waitUntil (world : World) (context : Nat) (instant : Instant) : Option Fault × World :=
  match world.done context with
  | some fault => (some fault, world)
  | none => ((world.pass context instant).done context, world.pass context instant)

/-- Do something with the contexts of a world, or let time pass. -/
def perform (world : World) : ContextAct → World
  | .new => world.newContext.2
  | .child parent =>
      if parent < world.tree.size then { world with tree := world.tree.child parent } else world
  | .withTimeout parent timeout =>
      if parent < world.tree.size then
        match world.tree.withTimeout parent world.now timeout with
        | some tree => { world with tree := tree }
        | none => world
      else world
  | .cancel id => world.cancel id world.now
  | .advance duration => world.goTo (world.now + duration)

/-- The world after some acts. -/
def after (acts : List ContextAct) : World := acts.foldl perform {}

/-- Wait for the end of a context while things are done; nothing if the wait is not over when
the last of them is done. -/
def awaitEnd (id : Nat) : World → List ContextAct → Option Fault × World
  | world, [] => (world.done id, world)
  | world, .advance duration :: rest =>
      match world.waitUntil id (world.now + duration) with
      | (some fault, later) => (some fault, later)
      | (none, later) => awaitEnd id later rest
  | world, act :: rest =>
      match world.done id with
      | some fault => (some fault, world)
      | none => awaitEnd id (world.perform act) rest

/-- Note a wait, which may be the one on which the context is cancelled. -/
def noteRest (world : World) (context : Nat) (duration : Duration) : World :=
  let world := { world with rests := world.rests ++ [duration] }
  if world.cancelOnRest = some world.rests.length then world.cancel context world.now
  else world

/-- Look at the wait for the end of a context. -/
def lookDone (context : Nat) (world : World) : Option Fault × World :=
  (world.done context, world)

/-- Sleep between two attempts, or note that somebody would have slept. -/
def sleep (setup : Setup) (context : Nat) (duration : Duration) : Work World Unit :=
  if setup.sleeps then
    .turn (fun world => (none, world.pass context (world.timer duration))) fun _ =>
      .last fun world => ((), world)
  else .last fun world => ((), world.noteRest context duration)

/-- Wait between two attempts, unless the context ends first or has ended. -/
def rest (setup : Setup) (context : Nat) (duration : Duration) (world : World) :
    Option Fault × World :=
  (sleep setup context duration).await (lookDone context) world

/-- The breaker of a name, read by the clock of the breakers. -/
def gate (name : String) : Gate World where
  ask world :=
    let (refusal, roster) := world.roster.ask name world.breakerClock
    (refusal, { world with roster := roster })
  succeed world := { world with roster := world.roster.succeed name }
  fail world :=
    let (breaksDown, roster) := world.roster.fail name world.breakerClock
    (breaksDown, { world with roster := roster })

/-- The number of invocations of a tool so far. -/
def invocationCount (world : World) (number : Nat) : Nat :=
  match world.invocations.find? (·.1 == number) with
  | some entry => entry.2
  | none => 0

/-- Count an invocation of a tool. -/
def countInvocation (world : World) (number : Nat) : World :=
  let count := world.invocationCount number
  { world with
    invocations := (number, count + 1) :: world.invocations.filter (·.1 != number) }

end World

end Runbook.Rehearsal
