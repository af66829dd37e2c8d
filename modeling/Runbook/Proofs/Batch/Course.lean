import Mathlib.Logic.Relation
import Runbook.Batch.Execution
import Runbook.Breaker.Roster
import Runbook.Tool.Attempt

namespace Runbook

/-!
# The courses that calls may take

Carrying out calls is made of small steps: the collector starts what is ready and takes
what has returned; a task asks for a permit, begins its call, makes attempts, rests
between them and gives its permit back.  Nothing fixes the order in which tasks and
collector take their steps.  Registry, breakers and tools answer as they like, and the
context may end at any time.

A `Course` is a batch under way together with its context and the history of what has
happened so far.  `Course.Step` says what its tasks and its collector may do next,
`Course.Moves` adds what comes from outside.  A `Conduct` is the whole of carrying out a
list of calls, with the short cuts for no call and for one.
-/

namespace Ending

variable {α : Type}

/-- The ending that a caller sees, as reporting a failure to a breaker may break down. -/
def reported (breaksDown : Bool) (ending : Ending α) : Ending α :=
  match Verdict.of ending with
  | .failure => if breaksDown then .brokeDown else ending
  | _ => ending

end Ending

namespace AttemptOutcome

/-- Whether an attempt may end like this under a context: once the context has ended the
attempt is interrupted for that reason, and not before. -/
def Fits (ended : Option Fault) : AttemptOutcome → Prop
  | .interrupted fault => ended = some fault
  | _ => ended = none

end AttemptOutcome

namespace Stage

/-- The stage after reporting to a breaker, which happens when an operation is over. -/
def reported (breaksDown : Bool) : Stage String → Stage String
  | .ended ending => .ended (ending.reported breaksDown)
  | stage => stage

/-- How an invocation of a tool may open: no such tool is found, its breaker turns the
call away, or the first attempt is due. -/
inductive Opens (name : String) (ended : Option Fault) : Stage String → Prop where
  | notFound :
      Opens name ended (.ended (.fault (.toolNotFound name)))
  | turnedAway :
      Opens name ended (.ended (.fault (.circuitOpen name)))
  | admitted :
      Opens name ended (.enter 1 ended)

/-- How an invocation of a tool may go on: an attempt ends, or a rest is over. -/
inductive Proceeds
    (policy : RetryPolicy) (name : String) (ended : Option Fault) :
    Stage String → Stage String → Prop where
  | attempted {attempt : Nat} {outcome : AttemptOutcome} (breaksDown : Bool) :
      outcome.Fits ended →
      Proceeds policy name ended
        (.attempting attempt)
        ((Stage.afterAttempt policy attempt (outcome.ending name)).reported breaksDown)
  | rested {attempt : Nat} :
      Proceeds policy name ended
        (.resting attempt)
        (.enter attempt ended)

end Stage

/-- One thing that happens while a batch is carried out. -/
inductive BatchEvent where
  /-- The context ends, for a reason outside the batch. -/
  | contextEnded (fault : Fault)
  /-- A task has its permit and begins its call. -/
  | began (index : Nat)
  /-- An attempt of the tool is made. -/
  | attempted (index attempt : Nat)
  /-- The invocation of the tool returns. -/
  | invoked (index : Nat) (ending : Ending String)
  /-- A task has settled its call and gives its permit back. -/
  | finished (index : Nat) (call : Call)
  /-- The failure of a task trips the batch. -/
  | tripped (index : Nat)
  /-- A task without a permit stops waiting for one. -/
  | gaveUp (index : Nat)
  /-- The collector stores the call of a task. -/
  | collected (index : Nat)
  deriving DecidableEq

namespace BatchEvent

/-- The task that an event is about. -/
def task? : BatchEvent → Option Nat
  | contextEnded _ => none
  | began index => some index
  | attempted index _ => some index
  | invoked index _ => some index
  | finished index _ => some index
  | tripped index => some index
  | gaveUp index => some index
  | collected index => some index

/-- Whether an event is that a batch trips. -/
def isTrip : BatchEvent → Bool
  | tripped _ => true
  | _ => false

/-- What happens when an invocation reaches a stage. -/
def ofStage (index : Nat) : Stage String → List BatchEvent
  | .attempting attempt => [attempted index attempt]
  | .resting _ => []
  | .ended ending => [invoked index ending]

end BatchEvent

/-- A context that has not ended may end for any reason of a context; one that is late
may still be cancelled. -/
inductive ContextEnds : Option Fault → Fault → Prop where
  | first {fault : Fault} :
      fault.endsContext = true →
      ContextEnds none fault
  | overtaken :
      ContextEnds (some .deadlineExceeded) .cancelled

/-- A batch under way with its context and what has happened. -/
structure Course where
  batch : Batch
  /-- Why the context has ended, if it has. -/
  ended : Option Fault := none
  /-- Whether the collector has looked for ready tasks. -/
  opened : Bool := false
  /-- What has happened, in that order. -/
  history : List BatchEvent := []

namespace Course

/-- The collector looks for the first time and starts what is ready. -/
def look (course : Course) : Course :=
  { course with
    opened := true
    batch := course.batch.dispatch course.ended }

/-- The collector stores the call of a task and starts what is ready now. -/
def collect (course : Course) (index : Nat) : Course :=
  { course with
    batch := (course.batch.collect index).dispatch course.ended
    history := course.history ++ [.collected index] }

/-- A task asks for a permit. -/
def request (course : Course) (index : Nat) : Course :=
  { course with batch := course.batch.request index }

/-- A task stops waiting for a permit. -/
def giveUp (course : Course) (index : Nat) (fault : Fault) : Course :=
  { course with
    batch := course.batch.giveUp index fault
    history := course.history ++ [.gaveUp index] }

/-- The invocation of a task reaches a stage, after other events. -/
def enter
    (course : Course) (index : Nat) (events : List BatchEvent) (stage : Stage String) :
    Course :=
  { course with
    batch := course.batch.begin index stage
    history := course.history ++ events ++ BatchEvent.ofStage index stage }

/-- The call of a task as its ending settles it. -/
def settled (task : BatchTask) (ending : Ending String) : Call :=
  task.call.settle (ending.resultOr (Batch.breakdown task.call.name))

/-- A task settles its call, trips the batch if it is to, and gives its permit back. -/
def finish (course : Course) (index : Nat) (task : BatchTask) (ending : Ending String) :
    Course :=
  let (tripped, batch) := course.batch.finish index ending course.ended
  { course with
    batch := batch
    ended := if tripped then some .cancelled else course.ended
    history := course.history ++ .finished index (settled task ending) ::
      if tripped then [.tripped index] else [] }

/-- The context ends for a reason outside the batch. -/
def endContext (course : Course) (fault : Fault) : Course :=
  { course with
    ended := some fault
    history := course.history ++ [.contextEnded fault] }

/-- What the collector and the tasks of a batch may do next. -/
inductive Step (policy : RetryPolicy) : Course → Course → Prop where
  | look {course : Course} :
      course.opened = false →
      Step policy course course.look
  | collect {course : Course} {index : Nat} {task : BatchTask} {call : Call} {began : Bool} :
      course.batch.tasks[index]? = some task →
      task.place = .returned call began →
      Step policy course (course.collect index)
  | request {course : Course} {index : Nat} {task : BatchTask} :
      course.batch.tasks[index]? = some task →
      task.place = .queued →
      course.ended = none →
      index ∉ course.batch.line →
      Step policy course (course.request index)
  | giveUp {course : Course} {index : Nat} {task : BatchTask} {fault : Fault} :
      course.batch.tasks[index]? = some task →
      (task.place = .queued ∨ task.place = .granted) →
      course.ended = some fault →
      Step policy course (course.giveUp index fault)
  | begin {course : Course} {index : Nat} {task : BatchTask} {stage : Stage String} :
      course.batch.tasks[index]? = some task →
      task.place = .granted →
      course.ended = none →
      Stage.Opens task.call.name course.ended stage →
      Step policy course (course.enter index [.began index] stage)
  | proceed {course : Course} {index : Nat} {task : BatchTask} {stage next : Stage String} :
      course.batch.tasks[index]? = some task →
      task.place = .running stage →
      Stage.Proceeds policy task.call.name course.ended stage next →
      Step policy course (course.enter index [] next)
  | finish {course : Course} {index : Nat} {task : BatchTask} {ending : Ending String} :
      course.batch.tasks[index]? = some task →
      task.place = .running (.ended ending) →
      Step policy course (course.finish index task ending)

/-- What may happen next: a step of the batch, or the end of its context. -/
inductive Moves (policy : RetryPolicy) : Course → Course → Prop where
  | step {course next : Course} :
      Step policy course next →
      Moves policy course next
  | outside {course : Course} {fault : Fault} :
      ContextEnds course.ended fault →
      Moves policy course (course.endContext fault)

/-- Whatever may have happened after any number of moves. -/
abbrev Reaches (policy : RetryPolicy) : Course → Course → Prop :=
  Relation.ReflTransGen (Moves policy)

/-- Nothing is under way any more: every task is collected or was never started. -/
def IsOver (course : Course) : Prop :=
  course.opened = true ∧
    ∀ task ∈ course.batch.tasks,
      task.place = .held ∨ task.place.isCollected = true

end Course

/-- One call that is carried out alone, without a permit. -/
structure Lone where
  call : Call
  /-- The stage of its invocation, once it has begun. -/
  stage : Option (Stage String) := none
  ended : Option Fault := none

namespace Lone

/-- What a lone call may do next. -/
inductive Step (policy : RetryPolicy) : Lone → Lone → Prop where
  | begin {lone : Lone} {stage : Stage String} :
      lone.stage = none →
      Stage.Opens lone.call.name lone.ended stage →
      Step policy lone { lone with stage := some stage }
  | proceed {lone : Lone} {stage next : Stage String} :
      lone.stage = some stage →
      Stage.Proceeds policy lone.call.name lone.ended stage next →
      Step policy lone { lone with stage := some next }

/-- Whether the invocation of a lone call is under way. -/
def isInside (lone : Lone) : Bool :=
  match lone.stage with
  | none => false
  | some (.ended _) => false
  | some _ => true

end Lone

/-- How far carrying out a list of calls has come. -/
inductive Conduct where
  /-- It is over, without any call under way. -/
  | settled (carried : Carried)
  /-- One call, alone. -/
  | alone (lone : Lone)
  /-- Calls side by side. -/
  | together (course : Course)

namespace Conduct

/-- Begin to carry out calls at an instant, at most `limit` of them at once.  What has calls to
carry out needs a context first, whose timeout may end beyond the last instant. -/
def start (config : BatchConfig) (calls : List Call)
    (table : Option (List (String × List String))) (limit : Nat) (now : Instant) : Conduct :=
  match Execution.of config calls table limit, config.limit? now with
  | .nothing, _ => settled (.calls [])
  | .refused fault, _ => settled (.refused fault)
  | .alone _, none => settled .brokeDown
  | .alone call, some _ => alone { call := call }
  | .batch _, none => settled .brokeDown
  | .batch batch, some _ =>
      if (Execution.batch batch).breaksDown then settled .brokeDown
      else together { batch := batch }

/-- What may happen next by itself. -/
inductive Step (policy : RetryPolicy) : Conduct → Conduct → Prop where
  | alone {lone next : Lone} :
      Lone.Step policy lone next →
      Step policy (alone lone) (alone next)
  | together {course next : Course} :
      Course.Step policy course next →
      Step policy (together course) (together next)

/-- What may happen next: a step, or the end of the context. -/
inductive Moves (policy : RetryPolicy) : Conduct → Conduct → Prop where
  | step {conduct next : Conduct} :
      Step policy conduct next →
      Moves policy conduct next
  | aloneOutside {lone : Lone} {fault : Fault} :
      ContextEnds lone.ended fault →
      Moves policy (alone lone) (alone { lone with ended := some fault })
  | togetherOutside {course : Course} {fault : Fault} :
      ContextEnds course.ended fault →
      Moves policy (together course) (together (course.endContext fault))

/-- Whatever may have happened after any number of moves. -/
abbrev Reaches (policy : RetryPolicy) : Conduct → Conduct → Prop :=
  Relation.ReflTransGen (Moves policy)

/-- What carrying out calls returns, at the points at which it does. -/
inductive Returns : Conduct → Carried → Prop where
  | settled {carried : Carried} :
      Returns (settled carried) carried
  | alone {lone : Lone} {ending : Ending String} :
      lone.stage = some (.ended ending) →
      Returns (alone lone)
        (.calls [lone.call.settle (ending.resultOr (Batch.breakdown lone.call.name))])
  | together {course : Course} :
      course.IsOver →
      Returns (together course) (.calls (course.batch.results course.ended))

/-- However things go, carrying out the calls comes to a return: it has returned, or
something can be done and whatever happens leads to a return. -/
inductive Concludes (policy : RetryPolicy) : Conduct → Prop where
  | returned {conduct : Conduct} {carried : Carried} :
      Returns conduct carried →
      Concludes policy conduct
  | goesOn {conduct next : Conduct} :
      Step policy conduct next →
      (∀ later, Moves policy conduct later → Concludes policy later) →
      Concludes policy conduct

/-- How many calls are being invoked. -/
def inside : Conduct → Nat
  | settled _ => 0
  | alone lone => if lone.isInside then 1 else 0
  | together course =>
      course.batch.tasks.countP fun task =>
        match task.place with
        | .running _ => true
        | _ => false

end Conduct

end Runbook
