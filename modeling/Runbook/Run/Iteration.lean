import Runbook.Batch.Execution
import Runbook.Model.Review
import Runbook.Race
import Runbook.Run.Journal

namespace Runbook

/-!
# Iterations of a run

An iteration takes a plan, carries it out and has the results reviewed.  The plan is
the one that the last review left, or else a new one.  Whoever makes a new plan, and whoever
reviews, races with the end of the context of the run.
-/

/-- Those who work for a run.  Each may change the state `σ` of everything else. -/
structure Crew (σ : Type) where
  /-- Look whether the context has ended. -/
  look : σ → Option Fault × σ
  /-- Look at the wait for the end of the context. -/
  done : σ → Option Fault × σ
  /-- Who makes a plan for an objective, given every result so far. -/
  planner : String → List Call → Work σ (Ending Plan)
  /-- Carry a plan out. -/
  carryOut : Plan → σ → Carried × σ
  /-- Who reviews every result so far; pieces of the answer are told on the way. -/
  reviewer : String → List Call → Work (σ × List String) (Ending Decision)

/-- What follows: the run goes on, or it is over. -/
inductive Next (α : Type) where
  | goOn (value : α)
  | ended (ending : Ending String)

namespace Crew

variable {σ : Type}

/-- Have a plan made, unless the context ends first. -/
def plan (crew : Crew σ) (objective : String) (results : List Call) (state : σ) :
    Ending Plan × σ :=
  (crew.planner objective results).guarded crew.done state

/-- Have the results so far reviewed, unless the context ends first; what was told by then has
been told. -/
def review (crew : Crew σ) (objective : String) (results : List Call) (state : σ) :
    Reviewed × σ :=
  let (ending, state, told) :=
    (crew.reviewer objective results).guarded (Work.aside crew.done) (state, [])
  (⟨ending, told⟩, state)

/-- The plan of an iteration, and where it comes from. -/
def choosePlan (crew : Crew σ) (pending : Option Plan) (journal : Journal) (state : σ) :
    Next (Plan × PlanSource) × σ :=
  match pending with
  | some plan => (.goOn (plan, .replanner), state)
  | none =>
      match crew.plan journal.state.objective journal.state.results state with
      | (.brokeDown, state) => (.ended .brokeDown, state)
      | (.finished (.error fault), state) => (.ended (.fault fault), state)
      | (.finished (.ok plan), state) =>
          if plan.isEmpty then (.ended (.fault Planning.emptyPlan), state)
          else (.goOn (plan, .planner), state)

/-- The fault of a review that goes on without a step. -/
def emptyContinuation : Fault := .replanner "continue decision carries an empty plan"

/-- What follows from a decision, and what is written down of it. -/
def follow (decision : Decision) (journal : Journal) : Next Plan × Journal :=
  match decision with
  | .complete answer => (.ended (.value answer), journal.note .replanning "complete")
  | .abort reason =>
      (.ended (.fault (.aborted reason)), journal.note .replanning ("abort: " ++ reason))
  | .goOn plan =>
      if plan.isEmpty then (.ended (.fault emptyContinuation), journal)
      else
        (.goOn plan,
          journal.note .replanning
            ("continue with " ++ toString plan.steps.length ++ " step(s)"))

/-- Have the results reviewed. -/
def reviewResults (crew : Crew σ) (journal : Journal) (state : σ) :
    Next Plan × Journal × σ :=
  match journal.enter .replanning with
  | .error fault => (.ended (.fault fault), journal, state)
  | .ok journal =>
      let (reviewed, state) :=
        crew.review journal.state.objective journal.state.results state
      let journal := journal.tellAll (reviewed.told.map .answerChunk)
      match reviewed.ending with
      | .brokeDown => (.ended .brokeDown, journal, state)
      | .finished (.error fault) => (.ended (.fault fault), journal, state)
      | .finished (.ok decision) =>
          let (next, journal) := follow decision journal
          (next, journal, state)

/-- Carry a plan out, and have the results reviewed. -/
def carryOutPlan (crew : Crew σ) (plan : Plan) (journal : Journal) (state : σ) :
    Next Plan × Journal × σ :=
  match journal.enter .executing with
  | .error fault => (.ended (.fault fault), journal, state)
  | .ok journal =>
      match crew.carryOut plan state with
      | (.brokeDown, state) => (.ended .brokeDown, journal, state)
      | (.refused fault, state) => (.ended (.fault fault), journal, state)
      | (.calls results, state) =>
          let journal := journal.addResults results
          match crew.look state with
          | (some fault, state) => (.ended (.fault fault), journal, state)
          | (none, state) => crew.reviewResults journal state

/-- One iteration: the plan for the next one, or the ending of the run. -/
def iterate (crew : Crew σ) (pending : Option Plan) (journal : Journal) (state : σ) :
    Next Plan × Journal × σ :=
  let journal := journal.nextIteration
  match journal.enter .planning with
  | .error fault => (.ended (.fault fault), journal, state)
  | .ok journal =>
      match crew.choosePlan pending journal state with
      | (.ended ending, state) => (.ended ending, journal, state)
      | (.goOn (plan, source), state) =>
          crew.carryOutPlan plan (journal.adopt plan source) state

end Crew

end Runbook
