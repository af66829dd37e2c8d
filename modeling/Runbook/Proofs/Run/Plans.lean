import Runbook.Proofs.Batch.Completion
import Runbook.Proofs.Rehearsal.Refinement
import Runbook.Proofs.Run.Reliable

namespace Runbook

/-!
# Plans are carried out as batches

Whatever becomes of a plan, its steps come back in their order, each settled in its own way,
or the plan is refused for a cycle of its dependencies.  What goes wrong with a call stays in
the result of that call.
-/

/-- What may become of calls: each of them is settled at its own place, all of them are
refused for a cycle, or carrying them out breaks down. -/
inductive Carried.Settles (calls : List Call) : Carried → Prop where
  | calls {results : List Call}
      (settled : List.Forall₂ (fun call result => ∃ outcome, result = call.settle outcome)
        calls results) :
      Settles calls (.calls results)
  | refused (name : String) :
      Settles calls (.refused (.cyclicDependency name))
  | brokeDown :
      Settles calls .brokeDown

namespace Conduct

/-- What there is to show for calls at any point, where a call that is still under way
counts as one that was not carried out. -/
inductive Shows : Conduct → Carried → Prop where
  | settled {carried : Carried} :
      Shows (settled carried) carried
  | alone {lone : Lone} {ending : Ending String} :
      lone.stage = some (.ended ending) →
      Shows (alone lone)
        (.calls [lone.call.settle (ending.resultOr (Batch.breakdown lone.call.name))])
  | together {course : Course} :
      Shows (together course) (.calls (course.batch.results course.ended))

/-- What carrying out calls returns is what there is to show for them. -/
theorem Returns.shows
    {conduct : Conduct}
    {carried : Carried}
    (returns : conduct.Returns carried) :
    conduct.Shows carried := by
  cases returns with
  | settled =>
      exact .settled
  | alone isEnded =>
      exact .alone isEnded
  | together isOver =>
      exact .together

variable {policy : RetryPolicy} {config : BatchConfig} {calls : List Call}
  {table : Option (List (String × List String))} {limit : Nat} {now : Instant}

/-- At no point is there anything else to show for calls. -/
theorem settles_of_shows
    {conduct : Conduct}
    {carried : Carried}
    (reaches : Reaches policy (start config calls table limit now) conduct)
    (shows : conduct.Shows carried) :
    carried.Settles calls := by
  have started := starts config calls table limit now
  generalize start config calls table limit now = first at started reaches
  cases started with
  | nothing isEmpty =>
      rw [settled_of_reaches reaches] at shows
      cases shows with
      | settled =>
          rw [isEmpty]
          exact .calls .nil
  | refused refused =>
      rw [settled_of_reaches reaches] at shows
      cases shows with
      | settled =>
          obtain ⟨name, isCyclic⟩ := Execution.cyclic_of_scheduleOf_error refused
          rw [isCyclic]
          exact .refused name
  | alone isCall _ =>
      obtain ⟨later, isLater, sameCall⟩ := alone_of_reaches reaches
      rw [isLater] at shows
      cases shows with
      | alone isEnded =>
          rw [isCall, sameCall]
          exact .calls (.cons ⟨_, rfl⟩ .nil)
  | endless _ _ =>
      rw [settled_of_reaches reaches] at shows
      cases shows with
      | settled =>
          exact .brokeDown
  | brokeDown _ _ =>
      rw [settled_of_reaches reaches] at shows
      cases shows with
      | settled =>
          exact .brokeDown
  | @together schedule _ made _ _ =>
      obtain ⟨later, isLater, courseReaches⟩ := together_of_reaches reaches
      rw [isLater] at shows
      cases shows with
      | together =>
          exact .calls (Course.forall₂_results (Execution.awaits_scheduleOf made).2.1
            (.of_reaches courseReaches) (.of_reaches courseReaches))

end Conduct

namespace Crew

variable {σ : Type} {crew : Crew σ} {policy : RetryPolicy} {config : BatchConfig}

/-- A crew that carries plans out as batches: unless it breaks down, what becomes of a plan
is what there is to show for its steps at some point of carrying them out. -/
def CarriesOutPlans (crew : Crew σ) (policy : RetryPolicy) (config : BatchConfig) : Prop :=
  ∀ plan state,
    (crew.carryOut plan state).1 = .brokeDown ∨
      ∃ now conduct,
        Conduct.Reaches policy
            (.start config plan.steps (some plan.dependencies) config.maxConcurrency now)
            conduct ∧
          conduct.Shows (crew.carryOut plan state).1

/-- What becomes of a plan is that its steps are settled. -/
theorem CarriesOutPlans.settles
    (carriesOut : crew.CarriesOutPlans policy config)
    (plan : Plan)
    (state : σ) :
    (crew.carryOut plan state).1.Settles plan.steps := by
  rcases carriesOut plan state with breaksDown | ⟨_, conduct, reaches, shows⟩
  · rw [breaksDown]
    exact .brokeDown
  · exact Conduct.settles_of_shows reaches shows

end Crew

namespace Rehearsal

namespace World

variable {setup : Setup} {context : Nat} {calls : List Call}
  {table : Option (List (String × List String))} {limit : Nat} {world : World}

/-- Calls that a rehearsal refuses are refused before anything happens. -/
theorem start_of_refused
    {fault : Fault}
    {later : World}
    (isRefused : world.carryOut setup context calls table limit = (.refused fault, later)) :
    (∀ now, Conduct.start setup.batch calls table limit now = .settled (.refused fault)) ∧
      later = world := by
  cases executed : Execution.of setup.batch calls table limit with
  | nothing =>
      simp only [carryOut, executed] at isRefused
      cases isRefused
  | refused other =>
      simp only [carryOut, executed] at isRefused
      cases isRefused
      exact ⟨fun now => by simp only [Conduct.start, executed], rfl⟩
  | alone call =>
      simp only [carryOut, executed] at isRefused
      split at isRefused <;> cases isRefused
  | batch batch =>
      simp only [carryOut, executed] at isRefused
      split at isRefused
      · cases isRefused
      · split at isRefused <;> cases isRefused

/-- Unless it breaks down, a rehearsal has to show for calls what a course has, with the
context as it is in that course. -/
theorem carryOut_shows
    {carried : Carried}
    {later : World}
    (isCarried : world.carryOut setup context calls table limit = (carried, later)) :
    carried = .brokeDown ∨
      ∃ conduct,
        Conduct.Reaches setup.policy (.start setup.batch calls table limit world.now) conduct ∧
          conduct.Shows carried ∧
            (later = world ∨ EndsUnder setup context world later conduct.ended) := by
  cases carried with
  | brokeDown =>
      exact Or.inl rfl
  | refused fault =>
      obtain ⟨isSettled, sameWorld⟩ := start_of_refused isCarried
      refine Or.inr ⟨_, .refl, ?_, Or.inl sameWorld⟩
      rw [isSettled]
      exact .settled
  | calls answers =>
      refine Or.inr ?_
      match calls, isCarried with
      | [], isCarried =>
          cases isCarried
          exact ⟨_, .refl, .settled, Or.inl rfl⟩
      | [call], isCarried =>
          obtain ⟨conduct, reaches, returns, endsUnder⟩ := carryOut_alone_returns isCarried
          exact ⟨conduct, reaches, returns.shows, Or.inr endsUnder⟩
      | first :: second :: others, isCarried =>
          obtain ⟨course, reaches, areResults, endsUnder⟩ :=
            carryOut_follows (by simp) isCarried
          rw [areResults]
          exact ⟨_, reaches, .together, Or.inr endsUnder⟩

end World

/-- In a rehearsal plans are carried out as batches, whoever plans and reviews. -/
theorem Studio.carriesOutPlans
    (setup : Setup)
    (context : Nat)
    (kind : String)
    (planner : Option (List PlanTurn))
    (reviewer : Option (List ReviewTurn)) :
    (crew setup context kind planner reviewer).CarriesOutPlans setup.policy setup.batch := by
  intro _ _
  refine (World.carryOut_shows rfl).imp_right ?_
  rintro ⟨conduct, reaches, shows, -⟩
  exact ⟨_, conduct, reaches, shows⟩

end Rehearsal

end Runbook
