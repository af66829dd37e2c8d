import Runbook.Rehearsal.Invocation

namespace Runbook.Rehearsal

/-!
# Rehearsing a batch

The tasks of a batch and its collector take turns, first come first served: each
goes on until it has to wait, and whatever it sets free or ends makes others ready,
which then stand behind those that are ready already.  When nobody is ready the
clock moves to the next instant at which somebody is.
-/

/-- Who takes a turn. -/
inductive Actor where
  | collector
  | task (index : Nat)
  deriving DecidableEq, Repr

/-- A batch in rehearsal. -/
structure Scene where
  world : World
  batch : Batch
  /-- The context of the batch. -/
  context : Nat
  /-- Who is ready, in the order of their turns. -/
  ready : List Actor := [.collector]
  /-- The invocations under way and what each waits for, by task. -/
  waits : List (Nat × Invocation × Option Wait) := []
  /-- The tasks that have returned, in that order. -/
  returned : List Nat := []

namespace Scene

/-- Make someone ready who is not. -/
def wake (scene : Scene) (actor : Actor) : Scene :=
  if actor ∈ scene.ready then scene else { scene with ready := scene.ready ++ [actor] }

/-- Make several ready, one after the other. -/
def wakeAll (scene : Scene) (actors : List Actor) : Scene := actors.foldl wake scene

/-- Why the context of the batch has ended, if it has. -/
def ended (scene : Scene) : Option Fault := scene.world.ended scene.context

/-- What a wait for the end of the context of the batch gives now, if it is over. -/
def done (scene : Scene) : Option Fault := scene.world.done scene.context

theorem done_eq_ended (scene : Scene) : scene.done = scene.ended :=
  World.done_eq_ended scene.world scene.context

/-- The tasks that have been started and are not over. -/
def activeTasks (scene : Scene) : List Nat :=
  scene.batch.order.filter fun index =>
    match scene.batch.place? index with
    | some place => place.isActive
    | none => false

/-- The tasks that were granted a permit by now and did not have one before. -/
def newlyGranted (before after : Batch) : List Actor :=
  (after.order.filter fun index =>
    after.place? index == some .granted && before.place? index != some .granted).map .task

/-- Make everyone ready who waits for the end of the context, if it has ended since it
was last seen. -/
def wakeOnEnd (scene : Scene) (before : Option Fault) : Scene :=
  match before, scene.ended with
  | none, some _ => scene.wakeAll (scene.activeTasks.map .task)
  | _, _ => scene

/-- A task is over: it is the collector's turn to look. -/
def handOver (scene : Scene) (index : Nat) : Scene :=
  { scene with
    waits := scene.waits.filter (·.1 != index)
    returned := scene.returned ++ [index] }.wake .collector

/-- End a running task. -/
def endTask (scene : Scene) (index : Nat) (ending : Ending String) : Scene :=
  let before := scene.ended
  let (tripped, batch) := scene.batch.finish index ending before
  let world :=
    if tripped then scene.world.cancel scene.context scene.world.now else scene.world
  let granted := newlyGranted scene.batch batch
  let scene := { scene with world := world, batch := batch }
  ((scene.wakeOnEnd before).wakeAll granted).handOver index

/-- Take a running task as far as it gets. -/
def goOn (setup : Setup) (scene : Scene) (index : Nat) (invocation : Invocation)
    (stage : Stage String) (wait : Option Wait) : Scene :=
  let before := scene.ended
  let (stage, wait, world) :=
    advance setup scene.context invocation (advanceFuel setup) stage wait scene.world
  let scene := { scene with world := world }.wakeOnEnd before
  match stage with
  | .ended ending =>
      let (ending, world) := (World.gate invocation.name).report ending scene.world
      { scene with world := world }.endTask index ending
  | stage =>
      { scene with
        batch := scene.batch.begin index stage
        waits := (index, invocation, wait) :: scene.waits.filter (·.1 != index) }

/-- Begin the call of a task that was granted a permit. -/
def beginTask (setup : Setup) (scene : Scene) (index : Nat) : Scene :=
  match scene.batch.tasks[index]? with
  | none => scene
  | some task =>
      match scene.world.openInvocation scene.context task.call.name task.call.input with
      | (.refused fault, world) =>
          { scene with world := world }.endTask index (.fault fault)
      | (.admitted invocation stage, world) =>
          goOn setup { scene with world := world } index invocation stage none

/-- Let a task give up on its permit. -/
def giveUp (scene : Scene) (index : Nat) (fault : Fault) : Scene :=
  let batch := scene.batch.giveUp index fault
  let granted := newlyGranted scene.batch batch
  ({ scene with batch := batch }.wakeAll granted).handOver index

/-- The turn of a task. -/
def taskTurn (setup : Setup) (scene : Scene) (index : Nat) : Scene :=
  match scene.batch.place? index with
  | some .queued =>
      match scene.done with
      | some fault => scene.giveUp index fault
      | none =>
          if index ∈ scene.batch.line then scene
          else
            let batch := scene.batch.request index
            let scene := { scene with batch := batch }
            if batch.place? index == some .granted then scene.beginTask setup index
            else scene
  | some .granted =>
      match scene.done with
      | some fault => scene.giveUp index fault
      | none => scene.beginTask setup index
  | some (.running stage) =>
      match scene.waits.find? (·.1 == index) with
      | some (_, invocation, wait) => scene.goOn setup index invocation stage wait
      | none => scene
  | _ => scene

/-- Start what is ready. -/
def dispatch (scene : Scene) : Scene :=
  let started :=
    match scene.ended with
    | some _ => []
    | none => scene.batch.readyTasks
  { scene with batch := scene.batch.dispatch scene.ended }.wakeAll (started.map .task)

/-- The turn of the collector: start what is ready and collect what has returned, as
long as there is something to collect. -/
def collectorTurn : (fuel : Nat) → Scene → Scene
  | 0, scene => scene
  | fuel + 1, scene =>
      let scene := scene.dispatch
      match scene.returned with
      | [] => scene
      | index :: rest =>
          collectorTurn fuel
            { scene with batch := scene.batch.collect index, returned := rest }

/-- The turn of whoever is first. -/
def turn (setup : Setup) (scene : Scene) (actor : Actor) : Scene :=
  match actor with
  | .collector => collectorTurn (scene.batch.tasks.length + 1) scene
  | .task index => scene.taskTurn setup index

/-- The next instant at which somebody goes on, when nobody is ready. -/
def nextInstant? (scene : Scene) : Option Instant :=
  let timers := scene.waits.foldl
    (fun next entry => earliest next (entry.2.2.map Wait.next)) none
  earliest timers (scene.world.contextEnd? scene.context)

/-- The tasks whose wait is over by now. -/
def dueTasks (scene : Scene) : List Nat :=
  scene.activeTasks.filter fun index =>
    scene.ended.isSome ||
      (match scene.waits.find? (·.1 == index) with
      | some (_, _, some wait) => wait.next ≤ scene.world.now
      | _ => false)

/-- Take turns until nothing is under way any more. -/
def run (setup : Setup) : (fuel : Nat) → Scene → Scene
  | 0, scene => scene
  | fuel + 1, scene =>
      match scene.ready with
      | actor :: rest => run setup fuel ({ scene with ready := rest }.turn setup actor)
      | [] =>
          if scene.activeTasks.isEmpty then scene
          else
            match scene.nextInstant? with
            | none => scene
            | some instant =>
                let scene := { scene with world := scene.world.goTo instant }
                run setup fuel (scene.wakeAll (scene.dueTasks.map .task))

/-- Turns that suffice for a batch. -/
def runFuel (setup : Setup) (tasks : Nat) : Nat :=
  (tasks + 2) * (8 * setup.policy.attempts + 32)

/-- Carry out a batch under a context: its calls afterwards, and the world. -/
def perform (setup : Setup) (context : Nat) (batch : Batch) (world : World) :
    List Call × World :=
  let scene := run setup (runFuel setup batch.tasks.length)
    { world := world, batch := batch, context := context }
  (scene.batch.results scene.ended, scene.world)

end Scene

namespace World

/-- The context under which a batch runs; `none` if its timeout ends beyond the last
instant. -/
def batchContext (setup : Setup) (context : Nat) (world : World) : Option (Nat × World) :=
  (setup.batch.limit? world.now).map fun limit =>
    (world.tree.size, { world with tree := world.tree.below context limit })

/-- Carry out calls with the given dependencies, at most `limit` of them at once. -/
def carryOut (setup : Setup) (context : Nat) (calls : List Call)
    (table : Option (List (String × List String))) (limit : Nat) (world : World) :
    Carried × World :=
  match Execution.of setup.batch calls table limit with
  | .nothing => (.calls [], world)
  | .refused fault => (.refused fault, world)
  | .alone call =>
      match world.batchContext setup context with
      | none => (.brokeDown, world)
      | some (batchContext, world) =>
          let (ending, world) := invoke setup batchContext call.name call.input world
          (.calls [call.settle (ending.resultOr (Batch.breakdown call.name))], world)
  | .batch batch =>
      match world.batchContext setup context with
      | none => (.brokeDown, world)
      | some (batchContext, world) =>
          if (Execution.batch batch).breaksDown then (.brokeDown, world)
          else
            let (calls, world) := Scene.perform setup batchContext batch world
            (.calls calls, world)

/-- Carry out chunks of calls one after the other, with a pause between two. -/
def carryOutChunks (setup : Setup) (context : Nat) :
    (first : Bool) → List (List Call) → World → Carried × World
  | _, [], world => (.calls [], world)
  | first, chunk :: rest, world =>
      let world :=
        if first || setup.batch.pause == 0 then world
        else (world.waitUntil context (world.timer setup.batch.pause)).2
      match world.ended context with
      | some fault =>
          (.calls ((chunk :: rest).flatten.map fun call => call.settle (.error fault)), world)
      | none =>
          match world.batchContext setup context with
          | none => (.brokeDown, world)
          | some (batchContext, world) =>
              let batch := Execution.chunkBatch setup.batch chunk
              if (Execution.batch batch).breaksDown then (.brokeDown, world)
              else
                let (done, world) := Scene.perform setup batchContext batch world
                match carryOutChunks setup context false rest world with
                | (.calls more, world) => (.calls (done ++ more), world)
                | other => other

/-- Carry out calls in chunks of a size. -/
def carryOutInChunks (setup : Setup) (context : Nat) (calls : List Call) (size : Nat)
    (world : World) : Carried × World :=
  carryOutChunks setup context true
    (Execution.chunks (Execution.chunkSize setup.batch size) calls) world

end World

end Runbook.Rehearsal
