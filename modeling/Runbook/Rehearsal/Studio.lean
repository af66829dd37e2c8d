import Runbook.Model.Offline
import Runbook.Rehearsal.Scene
import Runbook.Run.Report

namespace Runbook.Rehearsal

/-!
# Rehearsing with a model

Besides its tools a rehearsal may have a model, a planner and a reviewer that follow
scripts.  Each takes its next turn when it is asked, waits for a time, which is cut
short when the context ends, and then answers as its turn says.
-/

/-- What a scripted model does when it is asked. -/
inductive ModelAct where
  /-- It gives this reply, or this error. -/
  | reply (reply : Except String String)
  /-- It gives these pieces. -/
  | pieces (pieces : List Piece)
  /-- It replies by itself. -/
  | own

/-- One turn of a scripted model. -/
structure ModelTurn where
  delay : Duration := 0
  act : ModelAct := .own

/-- One turn of a scripted planner. -/
structure PlanTurn where
  delay : Duration := 0
  result : Except Fault Plan := .ok ⟨[], []⟩

/-- One turn of a scripted reviewer; without a result it completes with what the
calls returned. -/
structure ReviewTurn where
  delay : Duration := 0
  result : Option (Except Fault Decision) := none

/-- What was asked of a model. -/
structure Question where
  inPieces : Bool
  conversation : Conversation

/-- Everything that changes during a rehearsal with a model. -/
structure Studio where
  world : World
  /-- The turns that the model still has. -/
  turns : List ModelTurn := []
  model : OfflineModel := {}
  /-- What the model was asked. -/
  asked : List Question := []
  /-- How many results the scripted planner saw, call by call. -/
  plannerSaw : List Nat := []
  /-- How many results the scripted reviewer saw, call by call. -/
  reviewerSaw : List Nat := []

namespace Studio

/-- Let something change the world. -/
def onWorld {α : Type} (studio : Studio) (change : World → α × World) : α × Studio :=
  let (result, world) := change studio.world
  (result, { studio with world := world })

/-- Why a context has ended, if it has. -/
def look (context : Nat) (studio : Studio) : Option Fault × Studio :=
  (studio.world.ended context, studio)

/-- Look at the wait for the end of a context. -/
def lookDone (context : Nat) (studio : Studio) : Option Fault × Studio :=
  (studio.world.done context, studio)

/-- Let a time pass, or the time until a context ends if that is less. -/
def pause (context : Nat) (duration : Duration) (studio : Studio) : Studio :=
  { studio with world := studio.world.pass context (studio.world.timer duration) }

/-- Begin something that takes a time, and finish it when that is over; at once if it takes
none. -/
def inTime {α : Type} (context : Nat)
    (start : Studio → (Duration × (Studio → α × Studio)) × Studio) : Work Studio α :=
  .turn
    (fun studio =>
      let ((time, finish), studio) := start studio
      if time = 0 then (some (finish studio).1, (finish studio).2)
      else (none, studio.pause context time))
    fun studio => .last (start studio).1.2

/-- Work in the world. -/
def workOnWorld {α : Type} : Work World α → Work Studio α
  | .last take => .last fun studio => studio.onWorld take
  | .turn take rest =>
      .turn (fun studio => studio.onWorld take) fun studio => workOnWorld (rest studio.world)

/-- The turn of a scripted part in its call of a number, from zero; the last turn
repeats. -/
def turnAt {α : Type} (turns : List α) (call : Nat) : Option α :=
  match turns[call]? with
  | some turn => some turn
  | none => turns.getLast?

/-- Take the next turn of the model. -/
def nextTurn (inPieces : Bool) (conversation : Conversation) (studio : Studio) :
    ModelTurn × Studio :=
  (studio.turns.head?.getD {},
    { studio with
      turns := studio.turns.tail
      asked := studio.asked ++ [Question.mk inPieces conversation] })

/-- Ask the model itself, after handing it a reply if there is one. -/
def askModel (reply : Option (Except String String)) (conversation : Conversation)
    (studio : Studio) : Except String String × Studio :=
  let model :=
    match reply with
    | some reply => studio.model.push reply
    | none => studio.model
  let (reply, model) := model.ask conversation
  (reply, { studio with model := model })

/-- The texts among pieces. -/
def textsOf (pieces : List Piece) : List String :=
  pieces.filterMap fun piece => piece.content.toOption

/-- The whole answer of a turn. -/
def complete (conversation : Conversation) (act : ModelAct) (studio : Studio) :
    Except String String × Studio :=
  match act with
  | .pieces pieces => (.ok (String.join (textsOf pieces)), studio)
  | .reply reply => studio.askModel (some reply) conversation
  | .own => studio.askModel none conversation

/-- A whole answer in pieces that come at once. -/
def inPieces (reply : Except String String) : Except String (List Piece) :=
  reply.map fun text => (OfflineModel.streamed text).map fun piece => ⟨0, .ok piece⟩

/-- The answer of a turn in pieces. -/
def stream (conversation : Conversation) (act : ModelAct) (studio : Studio) :
    Except String (List Piece) × Studio :=
  match act with
  | .pieces pieces => (.ok pieces, studio)
  | .reply reply =>
      let (reply, studio) := studio.askModel (some reply) conversation
      (inPieces reply, studio)
  | .own =>
      let (reply, studio) := studio.askModel none conversation
      (inPieces reply, studio)

/-- The breaker of a name, in a studio. -/
def gate (name : String) : Gate Studio where
  ask studio := studio.onWorld (World.gate name).ask
  succeed studio := { studio with world := (World.gate name).succeed studio.world }
  fail studio := studio.onWorld (World.gate name).fail

/-- The scripted model takes its next turn, and answers when the time of that turn is over. -/
def answering {α : Type} (context : Nat) (inPieces : Bool) (conversation : Conversation)
    (answer : ModelAct → Studio → α × Studio) : Work Studio α :=
  inTime context fun studio =>
    let (turn, studio) := studio.nextTurn inPieces conversation
    ((turn.delay, answer turn.act), studio)

/-- The scripted model under a context. -/
def access (setup : Setup) (context : Nat) : ModelAccess Studio where
  look := look context
  done := lookDone context
  sleep duration := workOnWorld (World.sleep setup context duration)
  gate := gate ModelAccess.breakerName
  client conversation := answering context false conversation (complete conversation)
  streamer conversation := answering context true conversation (stream conversation)
  next duration := inTime context fun studio => ((duration, fun later => ((), later)), studio)

/-- What the tools are, for agents of a kind. -/
def toolText (studio : Studio) (kind : String) : String :=
  studio.world.catalogue.schemaText kind

/-- Ask the model for a plan. -/
def plan (setup : Setup) (context : Nat) (kind objective : String) (results : List Call)
    (studio : Studio) : Ending Plan × Studio :=
  Planning.plan (access setup context) setup.policy (studio.toolText kind) objective results
    studio

/-- Ask the model how to go on. -/
def review (setup : Setup) (context : Nat) (kind objective : String) (results : List Call)
    (studio : Studio) : Reviewed × Studio :=
  Review.review (access setup context) setup.policy (studio.toolText kind) objective results
    studio

/-- The scripted planner takes its turn. -/
def scriptedPlan (context : Nat) (turns : List PlanTurn) (results : List Call) :
    Work Studio (Ending Plan) :=
  inTime context fun studio =>
    let turn := (turnAt turns studio.plannerSaw.length).getD {}
    ((turn.delay, fun later => (.finished turn.result, later)),
      { studio with plannerSaw := studio.plannerSaw ++ [results.length] })

/-- What calls returned, with a dash for one that failed. -/
def summary (results : List Call) : String :=
  "; ".intercalate (results.map fun call => call.result?.getD "-")

/-- The scripted reviewer takes its turn. -/
def scriptedReview (context : Nat) (turns : List ReviewTurn) (results : List Call) :
    Work Studio (Ending Decision) :=
  inTime context fun studio =>
    let turn := (turnAt turns studio.reviewerSaw.length).getD {}
    let result := turn.result.getD (.ok (.complete (summary results)))
    ((turn.delay, fun later => (.finished result, later)),
      { studio with reviewerSaw := studio.reviewerSaw ++ [results.length] })

/-- Carry a plan out. -/
def carryOut (setup : Setup) (context : Nat) (plan : Plan) (studio : Studio) :
    Carried × Studio :=
  studio.onWorld
    (World.carryOut setup context plan.steps (some plan.dependencies)
      setup.batch.maxConcurrency)

/-- Those who work for a run in a studio: the model plans and reviews where there is
no script.  A stage with the model waits only for what races itself, so it is one turn. -/
def crew (setup : Setup) (context : Nat) (kind : String) (planner : Option (List PlanTurn))
    (reviewer : Option (List ReviewTurn)) : Crew Studio where
  look := look context
  done := lookDone context
  planner objective results :=
    match planner with
    | some turns => scriptedPlan context turns results
    | none => .last (plan setup context kind objective results)
  carryOut := carryOut setup context
  reviewer objective results :=
    match reviewer with
    | some turns => (scriptedReview context turns results).beside
    | none => Review.telling (review setup context kind objective results)

end Studio

end Runbook.Rehearsal
