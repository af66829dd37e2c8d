import Runbook.Batch.Schedule
import Runbook.Retry

namespace Runbook

/-!
# Batches

The calls of a batch run side by side.  Each is a task that goes through places:
it is held until what it depends on is over, then queued for a permit; with a
permit it runs; then it has returned; and at last it is collected, which is when
others see that it is over.  A batch that fails fast is tripped by the first task
that returns a fault of its own: the tasks that never ran are skipped.

Every function below is one step of one task or of the collector, between two
points at which something else may happen.  What a step sees of the context is an
argument, so the steps can be put together in any order and at any time.
-/

/-- How a batch is carried out. -/
structure BatchConfig where
  /-- How many calls run at once. -/
  maxConcurrency : Nat := 5
  /-- How long a batch may take, if there is a limit. -/
  timeout : Option Duration := some (.ofSeconds 300)
  /-- Whether the batch goes on after a failure. -/
  continueOnError : Bool := true
  /-- The pause between two chunks. -/
  pause : Duration := .ofMillis 100
  deriving DecidableEq, Repr

/-- Until when a batch that begins at an instant may take, if there is a limit; `none` if its
timeout ends beyond the last instant. -/
def BatchConfig.limit? (config : BatchConfig) (now : Instant) : Option (Option Instant) :=
  match config.timeout with
  | none => some none
  | some timeout => (now.after? timeout).map some

/-- Where a task of a batch is. -/
inductive TaskPlace where
  /-- It waits for what it depends on. -/
  | held
  /-- It waits for a permit. -/
  | queued
  /-- It was given a permit and has not begun. -/
  | granted
  /-- It holds a permit and carries out its call. -/
  | running (stage : Stage String)
  /-- It is over, and the collector has not seen it; `began` tells whether it ever
  had a permit. -/
  | returned (call : Call) (began : Bool)
  /-- Its call is collected. -/
  | collected (call : Call)
  deriving DecidableEq

/-- A call with the ids it must wait for and its place. -/
structure BatchTask where
  call : Call
  awaited : List String
  place : TaskPlace := .held
  deriving DecidableEq

/-- A batch under way. -/
structure Batch where
  tasks : List BatchTask
  /-- The order in which tasks are started. -/
  order : List Nat
  failFast : Bool
  /-- The permits that nobody has. -/
  permits : Nat
  /-- How many calls of each id are not collected. -/
  tally : Tally := {}
  /-- The tasks that wait for a permit, first come first served. -/
  line : List Nat := []
  /-- The id of the call that tripped the batch. -/
  trippedBy : Option String := none
  deriving DecidableEq

namespace TaskPlace

/-- Whether the task is collected. -/
def isCollected : TaskPlace → Bool
  | collected _ => true
  | _ => false

/-- Whether the task has been started and is not over. -/
def isActive : TaskPlace → Bool
  | queued => true
  | granted => true
  | running _ => true
  | _ => false

end TaskPlace

namespace Batch

/-- A batch before its first step. -/
def start (calls : List Call) (schedule : Schedule) (limit : Nat) (failFast : Bool) : Batch :=
  { tasks := (calls.zip schedule.awaited).map fun entry => ⟨entry.1, entry.2, .held⟩
    order := schedule.startOrder
    failFast := failFast
    permits := limit
    tally := .ofIds (calls.map (·.id)) }

/-- The place of a task. -/
def place? (batch : Batch) (index : Nat) : Option TaskPlace :=
  (batch.tasks[index]?).map (·.place)

/-- Put a task into another place. -/
def move (batch : Batch) (index : Nat) (place : TaskPlace) : Batch :=
  { batch with tasks := batch.tasks.modify index fun task => { task with place := place } }

/-- Whether everything that a task must wait for is collected, by the tally. -/
def isReady (batch : Batch) (task : BatchTask) : Bool :=
  task.awaited.all fun id => batch.tally.count id == 0

/-- The held tasks that are ready, in the order in which they are started. -/
def readyTasks (batch : Batch) : List Nat :=
  batch.order.filter fun index =>
    match batch.tasks[index]? with
    | some task => task.place == .held && batch.isReady task
    | none => false

/-- Start every task that is ready, unless the context has ended. -/
def dispatch (batch : Batch) (ended : Option Fault) : Batch :=
  match ended with
  | some _ => batch
  | none => batch.readyTasks.foldl (fun batch index => batch.move index .queued) batch

/-- Ask for a permit: a free one is granted, or else the task joins the line. -/
def request (batch : Batch) (index : Nat) : Batch :=
  if 0 < batch.permits then
    { batch with permits := batch.permits - 1 }.move index .granted
  else
    { batch with line := batch.line ++ [index] }

/-- Give a permit back: it goes to the first of the line, or it is free. -/
def release (batch : Batch) : Batch :=
  match batch.line with
  | [] => { batch with permits := batch.permits + 1 }
  | next :: rest => { batch with line := rest }.move next .granted

/-- Give up on a permit because the context has ended; one that was granted already
goes back. -/
def giveUp (batch : Batch) (index : Nat) (fault : Fault) : Batch :=
  match batch.tasks[index]? with
  | none => batch
  | some task =>
      let settled := TaskPlace.returned (task.call.settle (.error fault)) false
      match task.place with
      | .granted => (batch.move index settled).release
      | _ => { batch with line := batch.line.filter (· != index) }.move index settled

/-- Begin to carry out a call, which may be refused at once. -/
def begin (batch : Batch) (index : Nat) (stage : Stage String) : Batch :=
  batch.move index (.running stage)

/-- The result of a call whose tool broke down. -/
def breakdown (name : String) : Except Fault String :=
  .error (.toolFailed name "tool panicked")

/-- Whether the failure of a call trips the batch: the batch fails fast, the fault is
the call's own, the context goes on, and no other call was first. -/
def trips (batch : Batch) (call : Call) (ended : Option Fault) : Bool :=
  batch.failFast && ended.isNone && batch.trippedBy.isNone &&
    (match call.fault? with
    | some fault => !fault.endsContext
    | none => false)

/-- End a running task with the ending of its call and give its permit back; whether
this trips the batch, and the batch after it. -/
def finish (batch : Batch) (index : Nat) (ending : Ending String) (ended : Option Fault) :
    Bool × Batch :=
  match batch.tasks[index]? with
  | none => (false, batch)
  | some task =>
      let call := task.call.settle (ending.resultOr (breakdown task.call.name))
      let tripped := batch.trips call ended
      let batch := batch.move index (.returned call true)
      let batch := if tripped then { batch with trippedBy := some call.id } else batch
      (tripped, batch.release)

/-- A call that was not carried out because another one failed. -/
def skip (call : Call) (failed : String) : Call :=
  call.settle (.error (.skipped call.name ("'" ++ failed ++ "' failed")))

/-- The call that is kept of a task: one that never had a permit and ended with its
context is skipped if the batch is tripped. -/
def keep (trippedBy : Option String) (given call : Call) (began : Bool) : Call :=
  match trippedBy, began, call.fault? with
  | some failed, false, some fault => if fault.endsContext then skip given failed else call
  | _, _, _ => call

/-- Collect a task that has returned: one call less of its id is not over. -/
def collect (batch : Batch) (index : Nat) : Batch :=
  match batch.tasks[index]? with
  | some task =>
      match task.place with
      | .returned call began =>
          { batch with tally := batch.tally.lower call.id }.move index
            (.collected (keep batch.trippedBy task.call call began))
      | _ => batch
  | none => batch

/-- The call in the answer for a task, once nothing is under way any more. -/
def answer (batch : Batch) (ended : Option Fault) (task : BatchTask) : Call :=
  match task.place, batch.trippedBy with
  | .collected call, _ => call
  | _, some failed => skip task.call failed
  | _, none =>
      let fault := ended.getD (.internal ("call '" ++ task.call.id ++ "' never completed"))
      task.call.settle (.error fault)

/-- The calls of a batch after its last step, in the order in which they were given. -/
def results (batch : Batch) (ended : Option Fault) : List Call :=
  batch.tasks.map (batch.answer ended)

end Batch

end Runbook
