import Runbook.Proofs.Batch.Interruption
import Runbook.Proofs.Run.Heeding
import Runbook.Proofs.Run.Plans

namespace Runbook

open RunEvent

/-!
# Crews that heed the end of the context

A crew heeds the end of the context if each of its members does: the planner and the reviewer,
be it a model or somebody else, and whoever carries plans out as batches.  Then so does a whole
run, which looks at the context at the head of each iteration, before the planner and the
reviewer are called, and after each batch.
-/

/-- A run that ends for the end of its context fails for that. -/
theorem Report.outcome_of_isCut
    {result : Except Fault String}
    (isCut : (Ending.finished result).IsCut)
    (journal : Journal) :
    (Report.of result journal).outcome = .failed .cancelled ∨
      (Report.of result journal).outcome = .failed .deadlineExceeded := by
  obtain ⟨fault, endsContext, isFault⟩ := isCut
  cases isFault
  exact (Fault.endsContext_iff.mp endsContext).imp (congrArg Outcome.failed)
    (congrArg Outcome.failed)

/-- Whether the run is ended by the end of its context. -/
def Next.IsCut {α : Type} (next : Next α) : Prop :=
  ∃ ending : Ending String, next = .ended ending ∧ ending.IsCut

namespace Crew

variable {σ : Type}

/-- Who plans under the context of a run: a model that is asked, or somebody else who starts
nothing but the planning.  Either comes to a return. -/
inductive PlannerHeeds (history : σ → List RunEvent)
    (planner : String → List Call → Work σ (Ending Plan)) : Prop where
  | model {access : ModelAccess σ} {policy : RetryPolicy} {tools : σ → String}
      {mark leave : σ → σ} :
      access.Heeds history →
      (∀ state, history (mark state) = history state ++ [.plannerCalled]) →
      (∀ state, Returns (history state) (history (leave state))) →
      (∀ objective results,
        planner objective results = .last fun state =>
          (Planning.plan access policy (tools state) objective results (mark state)).map id
            leave) →
      PlannerHeeds history planner
  | other :
      (∀ objective results,
        (planner objective results).OnlyStarts history Returns [.plannerCalled]) →
      PlannerHeeds history planner

/-- Who reviews under the context of a run, in the same way. -/
inductive ReviewerHeeds (history : σ → List RunEvent)
    (reviewer : String → List Call → Work (σ × List String) (Ending Decision)) : Prop where
  | model {access : ModelAccess σ} {policy : RetryPolicy} {tools : σ → String}
      {mark leave : σ → σ} :
      access.Heeds history →
      (∀ state, history (mark state) = history state ++ [.reviewerCalled]) →
      (∀ state, Returns (history state) (history (leave state))) →
      (∀ objective results,
        reviewer objective results = Review.telling fun state =>
          (Review.review access policy (tools state) objective results (mark state)).map id
            leave) →
      ReviewerHeeds history reviewer
  | other :
      (∀ objective results,
        (reviewer objective results).OnlyStarts (fun state => history state.1) Returns
          [.reviewerCalled]) →
      ReviewerHeeds history reviewer

/-- A crew that works under the context of a run, by what has happened in the run.  Its plans
are carried out as batches below that context, unless that breaks down at once. -/
structure Heeds (crew : Crew σ) (history : σ → List RunEvent) (policy : RetryPolicy)
    (config : BatchConfig) : Prop where
  look : ∀ state,
    Looked (history state) (history (crew.look state).2) (crew.look state).1
  done : ∀ state,
    Looked (history state) (history (crew.done state).2) (crew.done state).1
  planner : PlannerHeeds history crew.planner
  carriesOut : crew.CarriesOutPlans policy config
  carryOut : ∀ plan state, Steady (history state) →
    ((crew.carryOut plan state).1 = .brokeDown ∧
        history (crew.carryOut plan state).2 = history state) ∨
      ∃ (now : Instant) (errand : Errand),
        Errand.Reaches policy
            ⟨.start config plan.steps (some plan.dependencies) config.maxConcurrency now,
              history state⟩ errand ∧
          errand.conduct.Shows (crew.carryOut plan state).1 ∧
            history (crew.carryOut plan state).2 = errand.history
  reviewer : ReviewerHeeds history crew.reviewer

section

variable {history : σ → List RunEvent} {state : σ}

/-- Whoever is called while the context goes on, asks a model that heeds its end, and returns. -/
theorem heeded_called
    {marked asked left : σ}
    {start : RunEvent}
    {isCut : Prop}
    (isMarked : history marked = history state ++ [start])
    (isStart : start.starts = true)
    (goesOn : ¬ HasEnded (history state))
    (heeds : Steady (history marked) → Heeded (history marked) (history asked) isCut)
    (returns : Returns (history asked) (history left)) :
    Heeded (history state) (history left) isCut := by
  have called := Heeded.of_started (not_hasEnded_singleton isStart) goesOn
  rw [← isMarked] at called
  exact (called.andThen (heeds (called.steady id))).returns returns

variable {crew : Crew σ} {policy : RetryPolicy} {config : BatchConfig}

theorem Heeds.plan
    (heeds : crew.Heeds history policy config)
    (objective : String)
    (results : List Call)
    (orderly : Orderly (history state)) :
    let planned := crew.plan objective results state
    Heeded (history state) (history planned.2) planned.1.IsCut := by
  cases heeds.planner with
  | @model access policy tools mark leave heedsModel isMarked returns isModel =>
      unfold Crew.plan
      rw [isModel]
      refine heeded_guarded_last heeds.done (fun state goesOn => ?_) orderly
      exact heeded_called (isMarked state) rfl goesOn
        (fun steady => heedsModel.plan policy (tools state) objective results steady)
        (returns _)
  | other only =>
      exact (only objective results).guarded heeds.done (not_hasEnded_singleton rfl) orderly

theorem Heeds.review
    (heeds : crew.Heeds history policy config)
    (objective : String)
    (results : List Call)
    (orderly : Orderly (history state)) :
    let reviewed := crew.review objective results state
    Heeded (history state) (history reviewed.2) reviewed.1.ending.IsCut := by
  -- What is told on the way is no part of what has happened.
  let tellingHistory (state : σ × List String) : List RunEvent := history state.1
  have waits (state : σ × List String) :
      Looked (tellingHistory state) (tellingHistory (Work.aside crew.done state).2)
        (Work.aside crew.done state).1 :=
    heeds.done state.1
  cases heeds.reviewer with
  | @model access policy tools mark leave heedsModel isMarked returns isModel =>
      unfold Crew.review
      rw [isModel]
      refine @heeded_guarded_last _ _ tellingHistory _ (state, []) _ waits ?_ orderly
      rintro ⟨state, told⟩ goesOn
      let asked := Review.review access policy (tools state) objective results (mark state)
      have called : Heeded (history state) (history (leave asked.2)) asked.1.ending.IsCut :=
        heeded_called (isMarked state) rfl goesOn
          (fun steady => heedsModel.review policy (tools state) objective results steady)
          (returns asked.2)
      exact called
  | other only =>
      exact @Work.OnlyStarts.guarded _ _ tellingHistory _ (state, []) _ _
        (only objective results) waits (not_hasEnded_singleton rfl) orderly

/-- While a plan is carried out the context may end only if the plan comes to results. -/
theorem Heeds.carriedOut
    (heeds : crew.Heeds history policy config)
    (plan : Plan)
    (steady : Steady (history state)) :
    let carried := crew.carryOut plan state
    Heeded (history state) (history carried.2) (∃ calls, carried.1 = .calls calls) := by
  rcases heeds.carryOut plan state steady with
    ⟨-, sameHistory⟩ | ⟨now, errand, reaches, shows, isHistory⟩
  · dsimp only
    rw [sameHistory]
    exact .of_steady steady _
  · obtain ⟨grows, orderly⟩ := Errand.orderly_of_reaches reaches steady.orderly
    dsimp only
    rw [isHistory]
    refine ⟨grows, orderly, fun cutShort => ?_⟩
    generalize (crew.carryOut plan state).1 = outcome at shows
    obtain ⟨conduct, after⟩ := errand
    cases shows with
    | alone isEnded =>
        exact ⟨_, rfl⟩
    | together =>
        exact ⟨_, rfl⟩
    | settled =>
        -- Calls that are settled were so before anything happened.
        generalize
          Conduct.start config plan.steps (some plan.dependencies) config.maxConcurrency now =
            start at reaches
        cases start with
        | settled startsAs =>
            cases Errand.settled_of_reaches reaches
            exact absurd cutShort steady.notCut
        | alone lone =>
            obtain ⟨later, isLater, -⟩ :=
              Conduct.alone_of_reaches (Errand.conduct_of_reaches reaches)
            cases isLater
        | together course =>
            obtain ⟨later, isLater, -⟩ :=
              Conduct.together_of_reaches (Errand.conduct_of_reaches reaches)
            cases isLater

theorem Heeds.choosePlan
    (heeds : crew.Heeds history policy config)
    (pending : Option Plan)
    (journal : Journal)
    (steady : Steady (history state)) :
    let chosen := crew.choosePlan pending journal state
    Heeded (history state) (history chosen.2) chosen.1.IsCut := by
  cases pending with
  | some plan =>
      exact .of_steady steady _
  | none =>
      have planned :=
        heeds.plan journal.state.objective journal.state.results steady.orderly
      cases isPlanned : crew.plan journal.state.objective journal.state.results state with
      | mk ending later =>
          rw [isPlanned] at planned
          simp only [Crew.choosePlan, isPlanned]
          cases ending with
          | brokeDown =>
              exact planned.imp fun isCut => absurd isCut not_isCut_brokeDown
          | finished result =>
              cases result with
              | error fault =>
                  exact planned.imp fun isCut =>
                    ⟨_, rfl, isCut_fault_iff.mpr (isCut_fault_iff.mp isCut)⟩
              | ok plan =>
                  dsimp only
                  split <;>
                    exact planned.imp fun isCut => absurd isCut (not_isCut_value _)

theorem Heeds.reviewResults
    (heeds : crew.Heeds history policy config)
    (journal : Journal)
    (steady : Steady (history state)) :
    let reviewed := crew.reviewResults journal state
    Heeded (history state) (history reviewed.2.2) reviewed.1.IsCut := by
  cases isEntered : journal.enter .replanning with
  | error fault =>
      simp only [Crew.reviewResults, isEntered]
      exact .of_steady steady _
  | ok entered =>
      have reviewed :=
        heeds.review entered.state.objective entered.state.results steady.orderly
      cases isReviewed :
          crew.review entered.state.objective entered.state.results state with
      | mk outcome later =>
          obtain ⟨ending, told⟩ := outcome
          rw [isReviewed] at reviewed
          simp only [Crew.reviewResults, isEntered, isReviewed]
          cases ending with
          | brokeDown =>
              exact reviewed.imp fun isCut => absurd isCut not_isCut_brokeDown
          | finished result =>
              cases result with
              | error fault =>
                  exact reviewed.imp fun isCut =>
                    ⟨_, rfl, isCut_fault_iff.mpr (isCut_fault_iff.mp isCut)⟩
              | ok decision =>
                  exact reviewed.imp fun isCut => absurd isCut (not_isCut_value _)

theorem Heeds.carryOutPlan
    (heeds : crew.Heeds history policy config)
    (plan : Plan)
    (journal : Journal)
    (steady : Steady (history state)) :
    let performed := crew.carryOutPlan plan journal state
    Heeded (history state) (history performed.2.2) performed.1.IsCut := by
  cases isEntered : journal.enter .executing with
  | error fault =>
      simp only [Crew.carryOutPlan, isEntered]
      exact .of_steady steady _
  | ok entered =>
      have carried := heeds.carriedOut plan steady
      cases isCarried : crew.carryOut plan state with
      | mk outcome after =>
          rw [isCarried] at carried
          cases outcome with
          | brokeDown =>
              simp only [Crew.carryOutPlan, isEntered, isCarried]
              refine carried.imp ?_
              rintro ⟨_, isCalls⟩
              cases isCalls
          | refused fault =>
              simp only [Crew.carryOutPlan, isEntered, isCarried]
              refine carried.imp ?_
              rintro ⟨_, isCalls⟩
              cases isCalls
          | calls results =>
              -- The results are kept, and it is the look that finds the context ended.
              have looked := heeds.look after
              have looks := looked.heeded carried.orderly
              cases isLooked : crew.look after with
              | mk ended later =>
                  rw [isLooked] at looked looks
                  simp only [Crew.carryOutPlan, isEntered, isCarried, isLooked]
                  refine carried.andThen ?_
                  cases ended with
                  | some fault =>
                      exact looks.imp fun _ => ⟨_, rfl, looked.isCut_of_fault⟩
                  | none =>
                      exact looks.andThen
                        (heeds.reviewResults _ (steady_of_not_hasEnded (looked.goesOn rfl)))

theorem Heeds.iterate
    (heeds : crew.Heeds history policy config)
    (pending : Option Plan)
    (journal : Journal)
    (steady : Steady (history state)) :
    let iterated := crew.iterate pending journal state
    Heeded (history state) (history iterated.2.2) iterated.1.IsCut := by
  cases isEntered : journal.nextIteration.enter .planning with
  | error fault =>
      simp only [Crew.iterate, isEntered]
      exact .of_steady steady _
  | ok entered =>
      have chosen := heeds.choosePlan pending entered steady
      cases isChosen : crew.choosePlan pending entered state with
      | mk choice after =>
          rw [isChosen] at chosen
          cases choice with
          | ended ending =>
              simp only [Crew.iterate, isEntered, isChosen]
              refine chosen.imp ?_
              rintro ⟨_, isEnding, isCut⟩
              cases isEnding
              exact ⟨_, rfl, isCut⟩
          | goOn choice =>
              have notCut : ¬ (Next.goOn choice).IsCut := by
                rintro ⟨_, isEnding, -⟩
                cases isEnding
              simp only [Crew.iterate, isEntered, isChosen]
              exact chosen.andThen (heeds.carryOutPlan _ _ (chosen.steady notCut))

/-- A whole run heeds the end of the context, also if it has ended before. -/
theorem Heeds.carryOn
    (heeds : crew.Heeds history policy config)
    (limit left : Nat)
    (pending : Option Plan)
    (journal : Journal)
    (orderly : Orderly (history state)) :
    let carried := crew.carryOn limit left pending journal state
    Heeded (history state) (history carried.2.2) carried.1.IsCut := by
  induction left generalizing pending journal state with
  | zero =>
      have looked := heeds.look state
      have looks := looked.heeded orderly
      cases isLooked : crew.look state with
      | mk ended after =>
          rw [isLooked] at looked looks
          simp only [Crew.carryOn, isLooked]
          cases ended with
          | some fault =>
              exact looks.imp fun _ => looked.isCut_of_fault
          | none =>
              exact looks.imp fun isNone => absurd rfl isNone
  | succ left inductionHypothesis =>
      have looked := heeds.look state
      have looks := looked.heeded orderly
      cases isLooked : crew.look state with
      | mk ended after =>
          rw [isLooked] at looked looks
          cases ended with
          | some fault =>
              simp only [Crew.carryOn, isLooked]
              exact looks.imp fun _ => looked.isCut_of_fault
          | none =>
              have iterated :=
                heeds.iterate pending journal (steady_of_not_hasEnded (looked.goesOn rfl))
              cases isIterated : crew.iterate pending journal after with
              | mk next rest =>
                  obtain ⟨between, later⟩ := rest
                  rw [isIterated] at iterated
                  simp only [Crew.carryOn, isLooked, isIterated]
                  refine looks.andThen ?_
                  cases next with
                  | ended ending =>
                      refine iterated.imp ?_
                      rintro ⟨_, isEnding, isCut⟩
                      cases isEnding
                      exact isCut
                  | goOn plan =>
                      exact iterated.andThen (inductionHypothesis _ _ iterated.orderly)

theorem Heeds.run
    (heeds : crew.Heeds history policy config)
    (limit : Nat)
    (runId objective : String)
    (orderly : Orderly (history state)) :
    let ran := crew.run limit runId objective state
    Heeded (history state) (history ran.2)
      (∃ report, ran.1 = some report ∧
        (report.outcome = .failed .cancelled ∨ report.outcome = .failed .deadlineExceeded)) := by
  have heeded :=
    heeds.carryOn (iterations limit) (iterations limit) none (.start runId objective) orderly
  unfold Crew.run
  cases isRun :
      crew.carryOn (iterations limit) (iterations limit) none (.start runId objective) state with
  | mk ending rest =>
      rw [isRun] at heeded
      cases ending with
      | brokeDown =>
          exact heeded.imp fun isCut => absurd isCut not_isCut_brokeDown
      | finished result =>
          exact heeded.imp fun isCut => ⟨_, rfl, Report.outcome_of_isCut isCut rest.1⟩

end

end Crew

end Runbook
