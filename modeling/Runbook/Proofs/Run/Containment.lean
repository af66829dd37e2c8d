import Runbook.Proofs.Run.Endings
import Runbook.Proofs.Run.Plans

namespace Runbook

/-!
# Faults are contained

Where a model plans and reviews, a run fails only for a few kinds of faults: its context
ended, a stage of the run failed, the run was given up, the plan has a cycle, or the limit is
reached.  Faults of tools stay in the results of their calls, and faults of the model become
faults of the stage in which it was asked.
-/

namespace Fault

/-- The faults for which a run may fail. -/
def endsRuns : Fault → Bool
  | cancelled => true
  | deadlineExceeded => true
  | planner _ => true
  | replanner _ => true
  | aborted _ => true
  | cyclicDependency _ => true
  | iterationLimit _ => true
  | _ => false

theorem endsRuns_of_endsContext
    {fault : Fault}
    (endsContext : fault.endsContext = true) :
    fault.endsRuns = true := by
  cases fault <;> first | rfl | cases endsContext

/-- Whatever goes wrong within a stage, the run fails for the stage or the context. -/
theorem endsRuns_inStage
    {stage : String → Fault}
    (isStage : ∀ reason, (stage reason).endsRuns = true)
    (fault : Fault) :
    (fault.inStage stage).endsRuns = true := by
  unfold inStage
  split
  · rename_i endsContext
    exact endsRuns_of_endsContext endsContext
  · exact isStage _

end Fault

namespace Ending

variable {α : Type}

/-- The fault of an ending that has one. -/
def fault? : Ending α → Option Fault
  | finished (.error fault) => some fault
  | _ => none

/-- An ending has no fault but one for which a run may fail. -/
def Contained (ending : Ending α) : Prop :=
  ∀ fault, ending.fault? = some fault → fault.endsRuns = true

theorem contained_fault
    {fault : Fault}
    (endsRuns : fault.endsRuns = true) :
    (Ending.fault fault : Ending α).Contained := by
  intro other isOther
  cases isOther
  exact endsRuns

theorem contained_value
    (value : α) :
    (Ending.value value).Contained :=
  nofun

theorem contained_brokeDown :
    (Ending.brokeDown : Ending α).Contained :=
  nofun

/-- Who guards work against the end of a context adds no fault but that of the context. -/
theorem contained_guarded
    {σ : Type}
    {done : σ → Option Fault × σ}
    {take : σ → Ending α × σ}
    (endsByContext : ∀ state fault, (done state).1 = some fault → fault.endsContext = true)
    (contained : ∀ state, (take state).1.Contained)
    (state : σ) :
    ((Work.last take).guarded done state).1.Contained := by
  have byContext := endsByContext state
  unfold Work.guarded
  cases isLooked : done state with
  | mk ended after =>
      rw [isLooked] at byContext
      cases ended with
      | some fault =>
          rw [Work.race_of_ended isLooked]
          exact contained_fault (Fault.endsRuns_of_endsContext (byContext fault rfl))
      | none =>
          rw [Work.race_last isLooked]
          exact contained after

end Ending

/-- The fault for which calls are refused. -/
def Carried.fault? : Carried → Option Fault
  | refused fault => some fault
  | _ => none

namespace Planning

theorem contained_planOf
    (reply : String) :
    (Ending.finished (planOf reply)).Contained := by
  unfold planOf
  split
  · exact Ending.contained_fault rfl
  · split
    · exact Ending.contained_fault rfl
    · exact Ending.contained_value _

theorem contained_ending
    (reply : Ending String) :
    (ending reply).Contained := by
  unfold ending
  split
  · exact Ending.contained_brokeDown
  · exact Ending.contained_fault (Fault.endsRuns_inStage (fun _ => rfl) _)
  · exact contained_planOf _

end Planning

namespace Review

theorem contained_ofWritten
    (ending : Ending String)
    (told : List String) :
    (ofWritten ending told).ending.Contained := by
  unfold ofWritten
  split
  · exact Ending.contained_brokeDown
  · exact Ending.contained_fault (Fault.endsRuns_inStage (fun _ => rfl) _)
  · split
    · exact Ending.contained_fault rfl
    · exact Ending.contained_value _

theorem contained_settle?
    {proposal : Proposal}
    {result : Except Fault Decision}
    (settles : settle? proposal = some result) :
    (Ending.finished result).Contained := by
  unfold settle? at settles
  split at settles
  · split at settles <;> cases settles
    · exact Ending.contained_value _
    · exact Ending.contained_fault rfl
  · cases settles
    exact Ending.contained_value _
  · split at settles <;> cases settles
    exact Ending.contained_value _

/-- Whatever a model and everything around it does, a review contains it. -/
theorem contained_review
    {σ : Type}
    (access : ModelAccess σ)
    (policy : RetryPolicy)
    (tools objective : String)
    (results : List Call)
    (state : σ) :
    (review access policy tools objective results state).1.ending.Contained := by
  unfold review
  dsimp only
  split
  · exact Ending.contained_brokeDown
  · exact Ending.contained_fault (Fault.endsRuns_inStage (fun _ => rfl) _)
  · split
    · exact Ending.contained_fault rfl
    · split
      · rename_i settles
        exact contained_settle? settles
      · exact contained_ofWritten _ _

end Review

namespace Crew

variable {σ : Type}

/-- The crew of a run where a model plans and reviews, told what the tools are. -/
def ofModel (access : ModelAccess σ) (policy : RetryPolicy) (tools : σ → String)
    (carryOut : Plan → σ → Carried × σ) : Crew σ where
  look := access.look
  done := access.done
  planner objective results := .last fun state =>
    Planning.plan access policy (tools state) objective results state
  carryOut := carryOut
  reviewer objective results := Review.telling fun state =>
    Review.review access policy (tools state) objective results state

/-- In a rehearsal without scripts for them the model plans and reviews. -/
theorem crew_eq_ofModel
    (setup : Rehearsal.Setup)
    (context : Nat)
    (kind : String) :
    Rehearsal.Studio.crew setup context kind none none =
      ofModel (Rehearsal.Studio.access setup context) setup.policy (·.toolText kind)
        (Rehearsal.Studio.carryOut setup context) := by
  rfl

/-- The fault that a deed meets by itself; the results of calls keep theirs. -/
def Deed.fault? : Deed → Option Fault
  | looked ended => ended
  | planned _ _ ending => ending.fault?
  | carriedOut _ carried => carried.fault?
  | reviewed _ _ outcome => outcome.ending.fault?

/-- A deed meets no fault but one for which a run may fail. -/
def Deed.Contained (deed : Deed) : Prop :=
  ∀ fault, deed.fault? = some fault → fault.endsRuns = true

/-- What ends a run contains its fault. -/
theorem Deed.Ends.contained
    {deed : Deed}
    {ending : Ending String}
    (ends : deed.Ends ending)
    (contained : deed.Contained) :
    ending.Contained := by
  cases ends with
  | cutOff fault =>
      exact Ending.contained_fault (contained fault rfl)
  | unplanned fault =>
      exact Ending.contained_fault (contained fault rfl)
  | refused fault =>
      exact Ending.contained_fault (contained fault rfl)
  | plannerBroke =>
      exact Ending.contained_brokeDown
  | planBroke =>
      exact Ending.contained_brokeDown
  | emptyPlan isEmpty =>
      exact Ending.contained_fault rfl
  | reviewed follows =>
      cases follows with
      | breaksDown =>
          exact Ending.contained_brokeDown
      | fails fault =>
          exact Ending.contained_fault (contained fault rfl)
      | completes answer =>
          exact Ending.contained_value answer
      | aborts reason =>
          exact Ending.contained_fault rfl
      | empty plan isEmpty =>
          exact Ending.contained_fault rfl

/-- How the faults of a run are contained, by its report and what its crew did. -/
structure Contained (report? : Option Report) (deeds : List Deed) : Prop
    extends Concludes report? deeds where
  /-- The run fails only for faults of these kinds. -/
  outcome : ∀ report fault, report? = some report → report.outcome = .failed fault →
    fault.endsRuns = true
  /-- All other faults are in the results of calls. -/
  faults : ∀ deed ∈ deeds, deed.Contained

section Model

variable {access : ModelAccess σ} {policy batchPolicy : RetryPolicy} {config : BatchConfig}
  {tools : σ → String} {carryOut : Plan → σ → Carried × σ}

/-- Where a model plans and reviews, everything the crew does is contained. -/
theorem keeps_contained
    (endsByContext : ∀ state fault,
      (access.look state).1 = some fault ∨ (access.done state).1 = some fault →
        fault.endsContext = true)
    (carriesOut :
      (ofModel access policy tools carryOut).CarriesOutPlans batchPolicy config) :
    (ofModel access policy tools carryOut).noted.Keeps fun state =>
      ∀ deed ∈ state.2, deed.Contained := by
  apply keeps_noted
  · intro state fault isFault
    exact Fault.endsRuns_of_endsContext (endsByContext state fault (Or.inl isFault))
  · intro objective results state
    exact Ending.contained_guarded (fun state fault isFault =>
      endsByContext state fault (Or.inr isFault)) (fun _ => Planning.contained_ending _) state
  · intro plan state
    have settles := carriesOut.settles plan state
    generalize ((ofModel access policy tools carryOut).carryOut plan state).1 = carried
      at settles
    intro fault isFault
    cases settles with
    | calls settled =>
        cases isFault
    | refused name =>
        cases isFault
        rfl
    | brokeDown =>
        cases isFault
  · intro objective results state
    exact Ending.contained_guarded
      (fun (state : σ × List String) fault isFault =>
        endsByContext state.1 fault (Or.inr isFault))
      (fun state => Review.contained_review access policy (tools state.1) objective results
        state.1) (state, [])

/-- Where a model plans and reviews, the faults of a run are contained, whatever the model,
the tools and the context do. -/
theorem contained_of_model
    (endsByContext : ∀ state fault,
      (access.look state).1 = some fault ∨ (access.done state).1 = some fault →
        fault.endsContext = true)
    (carriesOut :
      (ofModel access policy tools carryOut).CarriesOutPlans batchPolicy config)
    (limit : Nat)
    (runId objective : String)
    (state : σ) :
    ∃ report? later deeds,
      (ofModel access policy tools carryOut).run limit runId objective state =
          (report?, later) ∧
        (ofModel access policy tools carryOut).noted.run limit runId objective (state, []) =
            (report?, later, deeds) ∧
          Contained report? deeds := by
  have keeps := keeps_contained endsByContext carriesOut
  obtain ⟨report?, later, deeds, isRun, isNoted, concludes⟩ :=
    concludes_run (ofModel access policy tools carryOut) limit runId objective state
  have noneYet : ∀ deed ∈ ((state, []) : σ × List Deed).2, deed.Contained := nofun
  have allContained : ∀ deed ∈ deeds, deed.Contained := by
    have isKept := keeps.run limit runId objective noneYet
    rw [isNoted] at isKept
    exact isKept
  refine ⟨report?, later, deeds, isRun, isNoted, concludes, ?_, allContained⟩
  intro report fault isReport isFailed
  rcases concludes.given report fault isReport isFailed with ⟨other, isLimit⟩ | given
  · rw [isLimit]
    rfl
  · obtain ⟨deed, isDone, ends⟩ := given
    exact ends.contained (allContained deed isDone) fault rfl

end Model

/-- A studio with a model that plans to call two tools and then fails; one tool breaks down,
and there is no other. -/
def troubledStudio : Rehearsal.Studio where
  world :=
    { tree := .root {}
      catalogue :=
        { entries :=
            [⟨"p", ⟨"p", "", .null, ⟨0, [{ act := .breakDown }]⟩⟩, { category := .custom }⟩] } }
  turns :=
    [ { act := .reply
          (.ok "\x7b\"steps\":[\x7b\"tool\":\"p\"\x7d,\x7b\"tool\":\"q\"\x7d]\x7d") },
      { act := .reply (.error "overloaded") } ]

/-- The crew of that studio, where every operation is attempted once. -/
def troubledCrew : Crew Rehearsal.Studio :=
  Rehearsal.Studio.crew { policy := .none, batch := { timeout := none } } 0 "" none none

/-- A run in that studio fails for its reviewer, and the faults of the tools are in the
results. -/
theorem contained_of_model_in_trouble :
    ∃ report later deeds,
      troubledCrew.noted.run 3 "r" "o" (troubledStudio, []) = (some report, later, deeds) ∧
        Contained (some report) deeds ∧
          report.outcome = .failed (.replanner "model error: overloaded") ∧
            report.journal.state.results.map Call.fault? =
              [some (.toolFailed "p" "tool panicked"), some (.toolNotFound "q")] := by
  have carriesOut :=
    Rehearsal.Studio.carriesOutPlans { policy := .none, batch := { timeout := none } } 0 ""
      none none
  rw [crew_eq_ofModel] at carriesOut
  have endsByContext (studio : Rehearsal.Studio) (fault : Fault)
      (isFault :
        (Rehearsal.Studio.look 0 studio).1 = some fault ∨
          (Rehearsal.Studio.lookDone 0 studio).1 = some fault) :
      fault.endsContext = true := by
    rw [Rehearsal.Studio.lookDone, Rehearsal.World.done_eq_ended] at isFault
    exact ContextTree.endsContext_of_ended (isFault.elim id id)
  obtain ⟨report?, later, deeds, isRun, isNoted, contained⟩ :=
    contained_of_model endsByContext carriesOut 3 "r" "o" troubledStudio
  rw [← crew_eq_ofModel, ← troubledCrew] at isRun isNoted
  have isReport :
      (troubledCrew.run 3 "r" "o" troubledStudio).1.map
          (fun report => (report.outcome, report.journal.state.results.map Call.fault?)) =
        some (.failed (.replanner "model error: overloaded"),
          [some (.toolFailed "p" "tool panicked"), some (.toolNotFound "q")]) := by
    decide +kernel
  rw [isRun] at isReport
  cases report? with
  | none =>
      cases isReport
  | some report =>
      obtain ⟨isOutcome, areFaults⟩ := Prod.mk.inj (Option.some.inj isReport)
      exact ⟨report, later, deeds, isNoted, contained, isOutcome, areFaults⟩

end Crew

end Runbook
