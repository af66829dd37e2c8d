import Runbook.Proofs.Context
import Runbook.Proofs.Dependency.Order
import Runbook.Proofs.Run.Deeds
import Runbook.Rehearsal.Studio

namespace Runbook

/-!
# Reliable crews

A crew is reliable if contexts end for reasons of contexts, and a batch is refused only for a
cycle of its dependencies.  What every answer of a crew keeps holds after a run.  In a rehearsal
every crew is reliable.
-/

namespace Crew

variable {σ : Type}

section Keeps

/-- Whatever the crew is asked, something still holds of the state afterwards. -/
structure Keeps (crew : Crew σ) (holds : σ → Prop) : Prop where
  look : ∀ state, holds state → holds (crew.look state).2
  plan : ∀ objective results state, holds state → holds (crew.plan objective results state).2
  carryOut : ∀ plan state, holds state → holds (crew.carryOut plan state).2
  review : ∀ objective results state, holds state →
    holds (crew.review objective results state).2

variable {crew : Crew σ} {holds : σ → Prop} {state : σ}

theorem Keeps.choosePlan
    (keeps : crew.Keeps holds)
    (pending : Option Plan)
    (journal : Journal)
    (isHeld : holds state) :
    holds (crew.choosePlan pending journal state).2 := by
  cases pending with
  | some plan =>
      exact isHeld
  | none =>
      have plans := keeps.plan journal.state.objective journal.state.results _ isHeld
      unfold Crew.choosePlan
      grind

theorem Keeps.reviewResults
    (keeps : crew.Keeps holds)
    (journal : Journal)
    (isHeld : holds state) :
    holds (crew.reviewResults journal state).2.2 := by
  unfold Crew.reviewResults
  split
  · exact isHeld
  · rename_i entered _
    have reviews := keeps.review entered.state.objective entered.state.results _ isHeld
    dsimp only
    split
    · exact reviews
    · exact reviews
    · exact reviews

theorem Keeps.carryOutPlan
    (keeps : crew.Keeps holds)
    (plan : Plan)
    (journal : Journal)
    (isHeld : holds state) :
    holds (crew.carryOutPlan plan journal state).2.2 := by
  unfold Crew.carryOutPlan
  split
  · exact isHeld
  · have carries := keeps.carryOut plan state isHeld
    have looks := keeps.look _ carries
    have reviews (journal : Journal) := keeps.reviewResults journal looks
    grind

theorem Keeps.iterate
    (keeps : crew.Keeps holds)
    (pending : Option Plan)
    (journal : Journal)
    (isHeld : holds state) :
    holds (crew.iterate pending journal state).2.2 := by
  unfold Crew.iterate
  dsimp only
  split
  · exact isHeld
  · rename_i entered _
    have chooses := keeps.choosePlan pending entered isHeld
    have performs (plan : Plan) (journal : Journal) :=
      keeps.carryOutPlan plan journal chooses
    grind

/-- What the crew keeps holds after every run. -/
theorem Keeps.carryOn
    (keeps : crew.Keeps holds)
    (limit left : Nat)
    (pending : Option Plan)
    (journal : Journal)
    {state : σ}
    (isHeld : holds state) :
    holds (crew.carryOn limit left pending journal state).2.2 := by
  induction left generalizing pending journal state with
  | zero =>
      have looks := keeps.look state isHeld
      unfold Crew.carryOn
      grind
  | succ left inductionHypothesis =>
      have looks := keeps.look state isHeld
      have iterates := keeps.iterate pending journal looks
      have goesOn (plan : Plan) (journal : Journal) :=
        inductionHypothesis (some plan) journal iterates
      unfold Crew.carryOn
      grind

theorem Keeps.run
    (keeps : crew.Keeps holds)
    (limit : Nat)
    (runId objective : String)
    (isHeld : holds state) :
    holds (crew.run limit runId objective state).2 := by
  have carriesOn :=
    keeps.carryOn (iterations limit) (iterations limit) none (.start runId objective) isHeld
  unfold Crew.run
  grind

end Keeps

/-- A crew whose context ends with a fault of contexts, and which refuses a plan only for a
cycle. -/
structure Reliable (crew : Crew σ) : Prop where
  looks : ∀ state fault, (crew.look state).1 = some fault → fault.endsContext = true
  refuses : ∀ plan state fault, (crew.carryOut plan state).1 = .refused fault →
    ∃ name, fault = .cyclicDependency name

variable {crew : Crew σ}

/-- What holds of every answer of a crew holds of all that is written down of it. -/
theorem keeps_noted
    {holds : Deed → Prop}
    (looks : ∀ state, holds (.looked (crew.look state).1))
    (plans : ∀ objective results state,
      holds (.planned objective results (crew.plan objective results state).1))
    (carriesOut : ∀ plan state, holds (.carriedOut plan (crew.carryOut plan state).1))
    (reviews : ∀ objective results state,
      holds (.reviewed objective results (crew.review objective results state).1)) :
    crew.noted.Keeps fun state => ∀ deed ∈ state.2, holds deed := by
  refine ⟨fun state isHeld => ?_, fun objective results state isHeld => ?_,
    fun plan state isHeld => ?_, fun objective results state isHeld => ?_⟩
  all_goals refine List.forall_mem_append.mpr ⟨isHeld, List.forall_mem_singleton.mpr ?_⟩
  · exact looks state.1
  · exact plans objective results state.1
  · exact carriesOut plan state.1
  · exact reviews objective results state.1

theorem Reliable.keeps_noted
    (reliable : crew.Reliable) :
    crew.noted.Keeps fun state => ∀ deed ∈ state.2, deed.Reliable :=
  Crew.keeps_noted reliable.looks (fun _ _ _ => trivial) reliable.refuses fun _ _ _ => trivial

end Crew

namespace Execution

theorem cyclic_of_scheduleOf_error
    {calls : List Call}
    {table : Option (List (String × List String))}
    {fault : Fault}
    (fails : scheduleOf calls table = .error fault) :
    ∃ name, fault = .cyclicDependency name := by
  unfold scheduleOf at fails
  split at fails
  · cases fails
  · cases fails
  · rename_i entry rest
    unfold Schedule.ofDependencies at fails
    dsimp only at fails
    cases ordered : (Schedule.graphOf calls (entry :: rest)).order with
    | ok order =>
        rw [ordered] at fails
        cases fails
    | error other =>
        rw [ordered] at fails
        cases fails
        obtain ⟨name, isCyclic, _⟩ := DependencyGraph.cycle_of_order_error ordered
        exact ⟨name, isCyclic⟩

/-- Dependencies are refused only for a cycle. -/
theorem cyclic_of_refused
    {config : BatchConfig}
    {calls : List Call}
    {table : Option (List (String × List String))}
    {limit : Nat}
    {fault : Fault}
    (isRefused : of config calls table limit = .refused fault) :
    ∃ name, fault = .cyclicDependency name := by
  unfold of at isRefused
  split at isRefused
  · cases isRefused
  · split at isRefused
    · rename_i other scheduled
      cases isRefused
      exact cyclic_of_scheduleOf_error scheduled
    · split at isRefused <;> cases isRefused

end Execution

namespace Rehearsal.Studio

theorem cyclic_of_carryOut
    {setup : Setup}
    {context : Nat}
    {plan : Plan}
    {studio : Studio}
    {fault : Fault}
    (isRefused : (carryOut setup context plan studio).1 = .refused fault) :
    ∃ name, fault = .cyclicDependency name := by
  simp only [carryOut, onWorld, World.carryOut] at isRefused
  split at isRefused
  · cases isRefused
  · rename_i isFault
    cases isRefused
    exact Execution.cyclic_of_refused isFault
  · split at isRefused <;> cases isRefused
  · split at isRefused
    · cases isRefused
    · split at isRefused <;> cases isRefused

/-- In a rehearsal the crew is reliable, whoever plans and reviews. -/
theorem reliable_crew
    (setup : Setup)
    (context : Nat)
    (kind : String)
    (planner : Option (List PlanTurn))
    (reviewer : Option (List ReviewTurn)) :
    (crew setup context kind planner reviewer).Reliable :=
  ⟨fun _ _ => ContextTree.endsContext_of_ended, fun _ _ _ => cyclic_of_carryOut⟩

end Rehearsal.Studio

end Runbook
