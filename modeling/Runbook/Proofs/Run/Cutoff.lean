import Runbook.Proofs.Rehearsal.Watched
import Runbook.Proofs.Run.Endings

namespace Runbook

open RunEvent

/-!
# Runs that are cut off

A run whose context ends fails for that, and for nothing else, at whatever moment the context
ends: at the head of an iteration, while somebody plans or reviews, between two attempts or two
pieces of an answer, or while a batch is under way.  Nothing is started from then on, and what
the plans came to stays in the report, with a result for each call of a batch that was
interrupted.  A turn of a planner or a reviewer is one step, and an end that falls into a turn
that returns comes after that return.  The return then stands, and whatever the run goes on to
meets the end: a run that fails for something else, or succeeds, has ended with that return.
-/

namespace Crew

section

variable {objective : String} {results later : List Call} {pending : Option Plan}
  {deeds : List Deed} {plan other : Plan} {carried : Carried} {next : Next Plan}

/-- A plan that does not come to results ends the run. -/
theorem Performs.of_carriedOut
    (performs : Performs objective results plan deeds next later)
    (isDone : .carriedOut other carried ∈ deeds) :
    (∃ calls, carried = .calls calls) ∨
      ∃ ending, next = .ended ending ∧ (Deed.carriedOut other carried).Ends ending := by
  cases performs with
  | breaksDown =>
      cases List.mem_singleton.mp isDone
      exact Or.inr ⟨_, rfl, .planBroke⟩
  | refused fault =>
      cases List.mem_singleton.mp isDone
      exact Or.inr ⟨_, rfl, .refused fault⟩
  | cutOff calls fault =>
      simp only [List.mem_cons, Deed.carriedOut.injEq, reduceCtorEq, List.not_mem_nil,
        or_false] at isDone
      exact Or.inl ⟨calls, isDone.2⟩
  | reviewed calls =>
      simp only [List.mem_cons, Deed.carriedOut.injEq, reduceCtorEq, List.not_mem_nil,
        or_false] at isDone
      exact Or.inl ⟨calls, isDone.2⟩

theorem Iterates.of_carriedOut
    (iterates : Iterates objective results pending deeds next later)
    (isDone : .carriedOut other carried ∈ deeds) :
    (∃ calls, carried = .calls calls) ∨
      ∃ ending, next = .ended ending ∧ (Deed.carriedOut other carried).Ends ending := by
  cases iterates with
  | stops chooses =>
      exact absurd isDone chooses.not_carriedOut
  | performs chooses performs =>
      rcases List.mem_append.mp isDone with inOpening | inBody
      · exact absurd inOpening chooses.not_carriedOut
      · exact performs.of_carriedOut inBody

theorem Runs.of_carriedOut
    {limit left : Nat}
    {head : Option Fault}
    {rounds : List (List Deed)}
    {ending : Ending String}
    (runs : Runs limit objective left pending results head rounds ending later)
    (isDone : .carriedOut other carried ∈ rounds.flatten) :
    (∃ calls, carried = .calls calls) ∨ (Deed.carriedOut other carried).Ends ending := by
  induction runs with
  | cutOff fault =>
      cases isDone
  | exhausted =>
      cases isDone
  | ends iterates =>
      rw [List.flatten_singleton] at isDone
      refine (iterates.of_carriedOut isDone).imp_right ?_
      rintro ⟨_, isEnding, ends⟩
      cases isEnding
      exact ends
  | goesOn iterates runs inductionHypothesis =>
      rw [List.flatten_cons] at isDone
      rcases List.mem_append.mp isDone with inRound | inRest
      · rcases List.mem_append.mp inRound with isIterated | isLooked
        · refine Or.inl ((iterates.of_carriedOut isIterated).resolve_right ?_)
          rintro ⟨_, isEnding, -⟩
          cases isEnding
        · cases List.mem_singleton.mp isLooked
      · exact inductionHypothesis inRest

end

/-- What becomes of a plan is that its steps are settled. -/
def Deed.Settles : Deed → Prop
  | carriedOut plan carried => carried.Settles plan.steps
  | _ => True

/-- How a run is cut off if its context ends, by all that has happened in it, its report and
what its crew did. -/
structure CutOff (policy : RetryPolicy) (config : BatchConfig) (history : List RunEvent)
    (report? : Option Report) (deeds : List Deed) : Prop where
  /-- After the end no planner, reviewer, model or tool is started. -/
  startsBefore : ∀ earlier later fault onReturn,
    history = earlier ++ .contextEnded fault onReturn :: later →
      ∀ event ∈ later, event.starts = false
  /-- The run fails, and it fails for the end of its context, unless it came to its end with a
  return that was made before. -/
  fails : CutShort history →
    ∃ report, report? = some report ∧
      (report.outcome = .failed .cancelled ∨ report.outcome = .failed .deadlineExceeded)
  /-- A batch that is under way comes to a return, whatever has happened in it. -/
  returns : ∀ (plan : Plan) (now : Instant) (before : List RunEvent) (errand : Errand),
    Errand.Reaches policy
        ⟨.start config plan.steps (some plan.dependencies) config.maxConcurrency now, before⟩
        errand →
      errand.conduct.Concludes policy
  /-- Every plan that was carried out has come to results, one for each of its calls. -/
  settles : CutShort history →
    ∀ plan carried, .carriedOut plan carried ∈ deeds →
      ∃ results, carried = .calls results ∧
        List.Forall₂ (fun call result => ∃ outcome, result = call.settle outcome) plan.steps
          results
  /-- All these results stay in the report. -/
  keeps : ∀ report, report? = some report →
    report.journal.state.results = deeds.flatMap Deed.results

variable {σ : Type} {crew : Crew σ} {history : σ → List RunEvent} {policy : RetryPolicy}
  {config : BatchConfig}

end Crew

end Runbook
