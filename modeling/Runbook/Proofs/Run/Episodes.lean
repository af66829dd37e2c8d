import Runbook.Proofs.Batch.Traces
import Runbook.Run.Report

namespace Runbook

/-!
# Episodes of a run

What is told and what is traced of an iteration depends on how far it comes: to no plan, to
a plan without results, to results that nobody reviews, or to a review.  An `Episode` is an
iteration as it is written down, and a journal grows by one episode after the other.
-/

/-- How far a plan is carried out and reviewed. -/
inductive Performance where
  /-- The plan does not come to results. -/
  | unfinished
  /-- The plan comes to results, which nobody reviews. -/
  | unreviewed (results : List Call)
  /-- The results are reviewed, with what is told on the way and what is noted of the
  decision. -/
  | reviewed (results : List Call) (told : List String) (remark : Option String)

namespace Performance

def isReviewed : Performance → Bool
  | reviewed _ _ _ => true
  | _ => false

def results : Performance → List Call
  | unfinished => []
  | unreviewed results => results
  | reviewed results _ _ => results

/-- The phase in which it ends. -/
def phase : Performance → Phase
  | unfinished => .executing
  | unreviewed _ => .executing
  | reviewed _ _ _ => .replanning

/-- What is told of it. -/
def events (iteration : Nat) : Performance → List Event
  | unfinished => [.phaseChanged iteration .executing]
  | unreviewed results =>
      .phaseChanged iteration .executing :: results.map (.ofCall iteration)
  | reviewed results told _ =>
      .phaseChanged iteration .executing :: results.map (.ofCall iteration) ++
        .phaseChanged iteration .replanning :: told.map .answerChunk

/-- What is traced of it. -/
def entries (iteration : Nat) : Performance → List TraceEntry
  | unfinished => []
  | unreviewed results => [.ofCalls iteration results]
  | reviewed results _ remark =>
      .ofCalls iteration results ::
        (remark.map fun summary => ⟨iteration, .replanning, summary, []⟩).toList

/-- The results are those of the steps of a plan, in order. -/
def Fits (plan : Plan) : Performance → Prop
  | unfinished => True
  | unreviewed results =>
      results.map (fun call => (call.id, call.name)) =
        plan.steps.map fun call => (call.id, call.name)
  | reviewed results _ _ =>
      results.map (fun call => (call.id, call.name)) =
        plan.steps.map fun call => (call.id, call.name)

end Performance

/-- Where the plan of an iteration comes from: the first one from the planner. -/
def PlanSource.ofIteration (iteration : Nat) : PlanSource :=
  if iteration = 1 then planner else replanner

/-- What an iteration comes to. -/
inductive Episode where
  /-- There is no plan. -/
  | unplanned
  | planned (plan : Plan) (performance : Performance)

namespace Episode

/-- Whether nothing is missing. -/
def isFull : Episode → Bool
  | unplanned => false
  | planned _ performance => performance.isReviewed

def results : Episode → List Call
  | unplanned => []
  | planned _ performance => performance.results

/-- The phase in which it ends. -/
def phase : Episode → Phase
  | unplanned => .planning
  | planned _ performance => performance.phase

theorem phase_isOpen
    (episode : Episode) :
    episode.phase.isTerminal = false := by
  cases episode with
  | unplanned =>
      rfl
  | planned plan performance =>
      cases performance <;> rfl

theorem phase_of_isFull
    {episode : Episode}
    (isFull : episode.isFull = true) :
    episode.phase = .replanning := by
  cases episode with
  | unplanned =>
      cases isFull
  | planned plan performance =>
      cases performance with
      | reviewed results told remark =>
          rfl
      | _ =>
          cases isFull

/-- What is told of it. -/
def events (iteration : Nat) : Episode → List Event
  | unplanned => [.phaseChanged iteration .planning]
  | planned plan performance =>
      .phaseChanged iteration .planning ::
        .planReady iteration (.ofIteration iteration) plan.stepIds ::
          performance.events iteration

/-- The entry of a trace for a plan. -/
def planEntry (iteration : Nat) (plan : Plan) : TraceEntry where
  iteration := iteration
  phase := .planning
  summary :=
    toString plan.steps.length ++ " step(s) from " ++
      (PlanSource.ofIteration iteration).name ++ ": " ++ ", ".intercalate plan.stepIds

/-- What is traced of it. -/
def entries (iteration : Nat) : Episode → List TraceEntry
  | unplanned => []
  | planned plan performance =>
      planEntry iteration plan :: performance.entries iteration

theorem isOpen_of_mem_entries
    (episode : Episode)
    {iteration : Nat}
    {entry : TraceEntry}
    (isEntry : entry ∈ episode.entries iteration) :
    entry.phase.isTerminal = false := by
  cases episode with
  | unplanned =>
      cases isEntry
  | planned plan performance =>
      rcases List.mem_cons.mp isEntry with isPlan | inPerformance
      · rw [isPlan]
        rfl
      · cases performance with
        | unfinished =>
            cases inPerformance
        | unreviewed results =>
            rw [List.mem_singleton.mp inPerformance]
            rfl
        | reviewed results told remark =>
            rcases List.mem_cons.mp inPerformance with areCalls | isRemark
            · rw [areCalls]
              rfl
            · obtain ⟨summary, -, rfl⟩ :=
                Option.map_eq_some_iff.mp (Option.mem_toList.mp isRemark)
              rfl

/-- The results are those of the plan. -/
def Fits : Episode → Prop
  | unplanned => True
  | planned plan performance => performance.Fits plan

end Episode

/-- A run that is not over may fail. -/
theorem Phase.mayLeadTo_failed
    {phase : Phase}
    (isOpen : phase.isTerminal = false) :
    phase.mayLeadTo .failed = true := by
  cases phase <;> first | rfl | cases isOpen

namespace Journal

/-- The journal after a plan is carried out as far as it is. -/
def perform (journal : Journal) (performance : Performance) : Journal where
  state :=
    { journal.state with
      results := journal.state.results ++ performance.results
      phase := performance.phase }
  trace :=
    { journal.trace with
      entries := journal.trace.entries ++ performance.entries journal.state.iteration }
  events := journal.events ++ performance.events journal.state.iteration

/-- The journal after one more episode. -/
def record (journal : Journal) (episode : Episode) : Journal where
  state :=
    { journal.state with
      results := journal.state.results ++ episode.results
      iteration := journal.state.iteration + 1
      phase := episode.phase }
  trace :=
    { journal.trace with
      entries := journal.trace.entries ++ episode.entries (journal.state.iteration + 1) }
  events := journal.events ++ episode.events (journal.state.iteration + 1)

/-- The journal after another phase is entered. -/
def switch (journal : Journal) (next : Phase) : Journal :=
  { journal with state := { journal.state with phase := next } }.tell
    (.phaseChanged journal.state.iteration next)

theorem enter_eq_switch
    {journal : Journal}
    {phase : Phase}
    (isPhase : journal.state.phase = phase)
    (next : Phase)
    (isOther : phase ≠ next)
    (mayFollow : phase.mayLeadTo next = true) :
    journal.enter next = .ok (journal.switch next) := by
  subst isPhase
  simp [enter, RunState.enter, switch, isOther, mayFollow]

/-- A run that is not over may be closed in a phase that may follow. -/
theorem close_eq
    {journal : Journal}
    {phase : Phase}
    (isPhase : journal.state.phase = phase)
    (isOpen : phase.isTerminal = false)
    (next : Phase)
    (isLast : next.isTerminal = true)
    (mayFollow : phase.mayLeadTo next = true)
    (summary : String) :
    journal.close next summary = (journal.switch next).note next summary := by
  have isOther : phase ≠ next := by
    rintro rfl
    rw [isOpen] at isLast
    cases isLast
  have notOver : journal.state.isTerminal = false := by
    rw [RunState.isTerminal, isPhase]
    exact isOpen
  simp only [close, notOver, enter_eq_switch isPhase next isOther mayFollow]
  rfl

/-- An iteration begins with its planning, whether or not the run was planning before. -/
theorem enter_planning
    {journal : Journal}
    (mayPlan : journal.state.phase = .planning ∨ journal.state.phase = .replanning) :
    journal.nextIteration.enter .planning = .ok (journal.nextIteration.switch .planning) := by
  rcases mayPlan with isPlanning | isReplanning
  · simp [enter, RunState.enter, switch, nextIteration, RunState.nextIteration, isPlanning,
      Phase.isTerminal]
  · simp [enter, RunState.enter, switch, nextIteration, RunState.nextIteration, isReplanning,
      Phase.mayLeadTo]

/-- The journal after a review. -/
def review (journal : Journal) (told : List String) (remark : Option String) : Journal where
  state := { journal.state with phase := .replanning }
  trace :=
    { journal.trace with
      entries :=
        journal.trace.entries ++
          (remark.map fun summary =>
            ⟨journal.state.iteration, .replanning, summary, []⟩).toList }
  events :=
    journal.events ++
      .phaseChanged journal.state.iteration .replanning :: told.map .answerChunk

theorem review_of_undecided
    (journal : Journal)
    (told : List String) :
    (journal.switch .replanning).tellAll (told.map .answerChunk) =
      journal.review told none := by
  simp [switch, review, tell, tellAll]

theorem perform_unfinished
    (journal : Journal) :
    journal.switch .executing = journal.perform .unfinished := by
  simp [switch, perform, tell, Performance.results, Performance.phase, Performance.events,
    Performance.entries]

theorem perform_unreviewed
    (journal : Journal)
    (results : List Call) :
    (journal.switch .executing).addResults results =
      journal.perform (.unreviewed results) := by
  simp [switch, addResults, tell, tellAll, perform, Trace.add, RunState.addResults,
    Performance.results, Performance.phase, Performance.events, Performance.entries]

theorem perform_reviewed
    (journal : Journal)
    (results : List Call)
    (told : List String)
    (remark : Option String) :
    (journal.perform (.unreviewed results)).review told remark =
      journal.perform (.reviewed results told remark) := by
  simp [review, perform, Performance.results, Performance.phase, Performance.events,
    Performance.entries]

theorem record_unplanned
    (journal : Journal) :
    journal.nextIteration.switch .planning = journal.record .unplanned := by
  simp [switch, nextIteration, record, tell, RunState.nextIteration, Episode.results,
    Episode.phase, Episode.events, Episode.entries]

theorem record_planned
    (journal : Journal)
    (plan : Plan)
    (performance : Performance) :
    ((journal.nextIteration.switch .planning).adopt plan
        (.ofIteration (journal.state.iteration + 1))).perform performance =
      journal.record (.planned plan performance) := by
  simp [switch, nextIteration, record, adopt, note, tell, perform, Trace.add,
    RunState.nextIteration, Episode.results, Episode.phase, Episode.events, Episode.entries,
    Episode.planEntry]

section Records

variable (episodes : List Episode) (journal : Journal)

theorem iteration_records :
    (episodes.foldl record journal).state.iteration =
      journal.state.iteration + episodes.length := by
  induction episodes generalizing journal with
  | nil =>
      rfl
  | cons episode rest inductionHypothesis =>
      have oneMore :
          (journal.record episode).state.iteration = journal.state.iteration + 1 := rfl
      rw [List.foldl_cons, inductionHypothesis, oneMore, List.length_cons]
      omega

theorem events_records :
    (episodes.foldl record journal).events =
      journal.events ++
        (episodes.zipIdx (journal.state.iteration + 1)).flatMap fun entry =>
          entry.1.events entry.2 := by
  induction episodes generalizing journal with
  | nil =>
      exact (List.append_nil _).symm
  | cons episode rest inductionHypothesis =>
      rw [List.foldl_cons, inductionHypothesis, List.zipIdx_cons, List.flatMap_cons,
        ← List.append_assoc]
      rfl

theorem entries_records :
    (episodes.foldl record journal).trace.entries =
      journal.trace.entries ++
        (episodes.zipIdx (journal.state.iteration + 1)).flatMap fun entry =>
          entry.1.entries entry.2 := by
  induction episodes generalizing journal with
  | nil =>
      exact (List.append_nil _).symm
  | cons episode rest inductionHypothesis =>
      rw [List.foldl_cons, inductionHypothesis, List.zipIdx_cons, List.flatMap_cons,
        ← List.append_assoc]
      rfl

theorem results_records :
    (episodes.foldl record journal).state.results =
      journal.state.results ++ episodes.flatMap Episode.results := by
  induction episodes generalizing journal with
  | nil =>
      exact (List.append_nil _).symm
  | cons episode rest inductionHypothesis =>
      rw [List.foldl_cons, inductionHypothesis, List.flatMap_cons, ← List.append_assoc]
      rfl

/-- The phase is that of the last episode. -/
theorem phase_records :
    (episodes.foldl record journal).state.phase =
      (episodes.getLast?.map Episode.phase).getD journal.state.phase := by
  induction episodes generalizing journal with
  | nil =>
      rfl
  | cons episode rest inductionHypothesis =>
      rw [List.foldl_cons, inductionHypothesis, List.getLast?_cons]
      cases rest.getLast? <;> rfl

end Records

end Journal

namespace Outcome

/-- The phase in which a run ends. -/
def phase : Outcome → Phase
  | done _ => .done
  | failed _ => .failed

/-- The last that is told. -/
def event : Outcome → Event
  | done answer => .done answer
  | failed fault => .failed (reason fault)

/-- The last that is traced, in words. -/
def summary : Outcome → String
  | done _ => "answer ready"
  | failed fault => reason fault

end Outcome

namespace Report

/-- A run that is not over ends with one more phase, one more entry and one more event. -/
theorem of_eq
    {result : Except Fault String}
    {journal : Journal}
    {phase : Phase}
    (isPhase : journal.state.phase = phase)
    (isOpen : phase.isTerminal = false)
    (mayEnd : phase.mayLeadTo (of result journal).outcome.phase = true) :
    (of result journal).journal =
      (((journal.switch (of result journal).outcome.phase).note
          (of result journal).outcome.phase (of result journal).outcome.summary).tell
            (of result journal).outcome.event).finish := by
  cases result with
  | ok answer =>
      simp only [of, Journal.close_eq isPhase isOpen .done rfl mayEnd]
      rfl
  | error fault =>
      simp only [of, Journal.close_eq isPhase isOpen .failed rfl mayEnd]
      rfl

end Report

/-- The iteration of a plan that is told. -/
def Event.planned? : Event → Option Nat
  | planReady iteration _ _ => some iteration
  | _ => none

/-- The iteration of a plan that is traced. -/
def TraceEntry.planned? (entry : TraceEntry) : Option Nat :=
  if entry.phase = .planning then some entry.iteration else none

/-- A step that is told to be over: its iteration, its id, its tool and whether it went
well. -/
def Event.step? : Event → Option (Nat × String × String × Bool)
  | stepFinished iteration id tool ok _ => some (iteration, id, tool, ok)
  | _ => none

/-- The same of the steps that are traced. -/
def TraceEntry.stepsOver (entry : TraceEntry) : List (Nat × String × String × Bool) :=
  entry.steps.map fun step => (entry.iteration, step.id, step.tool, step.ok)

namespace Episode

variable (iteration : Nat) (episode : Episode)

theorem planned?_events :
    (episode.events iteration).filterMap Event.planned? =
      (episode.entries iteration).filterMap TraceEntry.planned? := by
  cases episode with
  | unplanned =>
      rfl
  | planned plan performance =>
      cases performance with
      | unfinished =>
          rfl
      | unreviewed results =>
          simp [events, entries, Performance.events, Performance.entries,
            List.filterMap_cons, List.filterMap_map, Function.comp_def, Event.planned?,
            Event.ofCall, TraceEntry.planned?, planEntry, TraceEntry.ofCalls]
      | reviewed results told remark =>
          cases remark <;>
            simp [events, entries, Performance.events, Performance.entries,
              List.filterMap_cons, List.filterMap_map, Function.comp_def, Event.planned?,
              Event.ofCall, TraceEntry.planned?, planEntry, TraceEntry.ofCalls]

theorem step?_events :
    (episode.events iteration).filterMap Event.step? =
      (episode.entries iteration).flatMap TraceEntry.stepsOver := by
  cases episode with
  | unplanned =>
      rfl
  | planned plan performance =>
      cases performance with
      | unfinished =>
          rfl
      | unreviewed results =>
          simp [events, entries, Performance.events, Performance.entries,
            List.filterMap_cons, List.filterMap_map, Function.comp_def, Event.step?,
            Event.ofCall, TraceEntry.stepsOver, planEntry, TraceEntry.ofCalls,
            StepRecord.ofCall]
      | reviewed results told remark =>
          cases remark <;>
            simp [events, entries, Performance.events, Performance.entries,
              List.filterMap_cons, List.filterMap_map, Function.comp_def, Event.step?,
              Event.ofCall, TraceEntry.stepsOver, planEntry, TraceEntry.ofCalls,
              StepRecord.ofCall]

end Episode

end Runbook
