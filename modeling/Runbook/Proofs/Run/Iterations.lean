import Runbook.Proofs.History
import Runbook.Run.Report

namespace Runbook

/-!
# What an iteration does

What a run asks of its crew is written down as it happens.  An iteration chooses a plan, has
it carried out, and has every result so far reviewed; it may end the run after any of these.
The inductive relations below list all that can happen, and writing down changes nothing.
-/

namespace Journal

variable {journal later : Journal}

/-- Entering a phase that may follow, or is the present one, changes the phase alone. -/
theorem enter_of_allowed
    {phase : Phase}
    (next : Phase)
    (isPhase : journal.state.phase = phase)
    (isAllowed :
      (phase = next ∧ !next.isTerminal) ∨ phase.mayLeadTo next = true) :
    ∃ later, journal.enter next = .ok later ∧
      later.state = { journal.state with phase := next } := by
  subst isPhase
  have enters :
      journal.state.enter next = .ok { journal.state with phase := next } := by
    unfold RunState.enter
    split
    · rename_i stays
      rw [← stays.1]
    · rename_i leaves
      rw [if_pos (isAllowed.resolve_left leaves)]
  unfold enter
  rw [enters]
  dsimp only
  split <;> exact ⟨_, rfl, rfl⟩

end Journal

namespace Crew

variable {σ : Type}

/-- What a run asks of its crew, and what came of it. -/
inductive Deed where
  | looked (ended : Option Fault)
  | planned (objective : String) (seen : List Call) (ending : Ending Plan)
  | carriedOut (plan : Plan) (carried : Carried)
  | reviewed (objective : String) (seen : List Call) (reviewed : Reviewed)
  deriving DecidableEq

/-- A crew where everything that is asked of it is written down.  What is written down of a
planner or a reviewer is how the race with the end of the context went, so there is no other. -/
def noted (crew : Crew σ) : Crew (σ × List Deed) where
  look := History.noting crew.look .looked
  done state := (none, state)
  planner objective results :=
    .last (History.noting (crew.plan objective results) (.planned objective results))
  carryOut plan := History.noting (crew.carryOut plan) (.carriedOut plan)
  reviewer objective results :=
    Review.telling
      (History.noting (crew.review objective results) (.reviewed objective results))

section Noted

variable (crew : Crew σ) (state : σ) (log : List Deed)

theorem look_noted :
    crew.noted.look (state, log) =
      ((crew.look state).1, (crew.look state).2, log ++ [.looked (crew.look state).1]) := by
  rfl

theorem plan_noted
    (objective : String)
    (results : List Call) :
    crew.noted.plan objective results (state, log) =
      ((crew.plan objective results state).1, (crew.plan objective results state).2,
        log ++ [.planned objective results (crew.plan objective results state).1]) := by
  rfl

theorem carryOut_noted
    (plan : Plan) :
    crew.noted.carryOut plan (state, log) =
      ((crew.carryOut plan state).1, (crew.carryOut plan state).2,
        log ++ [.carriedOut plan (crew.carryOut plan state).1]) := by
  rfl

theorem review_noted
    (objective : String)
    (results : List Call) :
    crew.noted.review objective results (state, log) =
      ((crew.review objective results state).1, (crew.review objective results state).2,
        log ++ [.reviewed objective results (crew.review objective results state).1]) := by
  rfl

end Noted

/-- How the plan of an iteration is chosen. -/
inductive Chooses (objective : String) (results : List Call) :
    Option Plan → List Deed → Next (Plan × PlanSource) → Prop where
  | pending (plan : Plan) :
      Chooses objective results (some plan) [] (.goOn (plan, .replanner))
  | breaksDown :
      Chooses objective results none [.planned objective results .brokeDown] (.ended .brokeDown)
  | fails (fault : Fault) :
      Chooses objective results none [.planned objective results (.fault fault)]
        (.ended (.fault fault))
  | empty (plan : Plan) (isEmpty : plan.isEmpty = true) :
      Chooses objective results none [.planned objective results (.value plan)]
        (.ended (.fault Planning.emptyPlan))
  | plans (plan : Plan) (isNonempty : plan.isEmpty = false) :
      Chooses objective results none [.planned objective results (.value plan)]
        (.goOn (plan, .planner))

/-- What follows from how a review ends. -/
inductive Follows : Ending Decision → Next Plan → Prop where
  | breaksDown :
      Follows .brokeDown (.ended .brokeDown)
  | fails (fault : Fault) :
      Follows (.fault fault) (.ended (.fault fault))
  | completes (answer : String) :
      Follows (.value (.complete answer)) (.ended (.value answer))
  | aborts (reason : String) :
      Follows (.value (.abort reason)) (.ended (.fault (.aborted reason)))
  | empty (plan : Plan) (isEmpty : plan.isEmpty = true) :
      Follows (.value (.goOn plan)) (.ended (.fault emptyContinuation))
  | goesOn (plan : Plan) (isNonempty : plan.isEmpty = false) :
      Follows (.value (.goOn plan)) (.goOn plan)

/-- How a plan is carried out and what it led to is reviewed; with every result
afterwards. -/
inductive Performs (objective : String) (results : List Call) (plan : Plan) :
    List Deed → Next Plan → List Call → Prop where
  | breaksDown :
      Performs objective results plan [.carriedOut plan .brokeDown] (.ended .brokeDown)
        results
  | refused (fault : Fault) :
      Performs objective results plan [.carriedOut plan (.refused fault)]
        (.ended (.fault fault)) results
  | cutOff (calls : List Call) (fault : Fault) :
      Performs objective results plan
        [.carriedOut plan (.calls calls), .looked (some fault)] (.ended (.fault fault))
        (results ++ calls)
  | reviewed (calls : List Call) {ending : Ending Decision} (told : List String)
      {next : Next Plan} (follows : Follows ending next) :
      Performs objective results plan
        [.carriedOut plan (.calls calls), .looked none,
          .reviewed objective (results ++ calls) ⟨ending, told⟩]
        next (results ++ calls)

/-- What an iteration does, with every result afterwards. -/
inductive Iterates (objective : String) (results : List Call) (pending : Option Plan) :
    List Deed → Next Plan → List Call → Prop where
  | stops {deeds : List Deed} {ending : Ending String}
      (chooses : Chooses objective results pending deeds (.ended ending)) :
      Iterates objective results pending deeds (.ended ending) results
  | performs {opening body : List Deed} {plan : Plan} {source : PlanSource}
      {next : Next Plan} {later : List Call}
      (chooses : Chooses objective results pending opening (.goOn (plan, source)))
      (performs : Performs objective results plan body next later) :
      Iterates objective results pending (opening ++ body) next later

theorem choosePlan_noted
    (crew : Crew σ)
    (pending : Option Plan)
    (journal : Journal)
    (state : σ)
    (log : List Deed) :
    ∃ deeds,
      crew.noted.choosePlan pending journal (state, log) =
          ((crew.choosePlan pending journal state).1,
            (crew.choosePlan pending journal state).2, log ++ deeds) ∧
        Chooses journal.state.objective journal.state.results pending deeds
          (crew.choosePlan pending journal state).1 := by
  cases pending with
  | some plan =>
      exact ⟨[], by simp [choosePlan], .pending plan⟩
  | none =>
      cases isPlanned : crew.plan journal.state.objective journal.state.results state with
      | mk ending planned =>
          refine ⟨[.planned journal.state.objective journal.state.results ending], ?_⟩
          cases ending with
          | brokeDown =>
              simp only [choosePlan, plan_noted, isPlanned]
              exact ⟨trivial, .breaksDown⟩
          | finished result =>
              cases result with
              | error fault =>
                  simp only [choosePlan, plan_noted, isPlanned]
                  exact ⟨trivial, .fails fault⟩
              | ok plan =>
                  simp only [choosePlan, plan_noted, isPlanned]
                  cases isEmpty : plan.isEmpty with
                  | true =>
                      exact ⟨rfl, .empty plan isEmpty⟩
                  | false =>
                      exact ⟨rfl, .plans plan isEmpty⟩

theorem follows_follow
    (decision : Decision)
    (journal : Journal) :
    Follows (.value decision) (follow decision journal).1 ∧
      (follow decision journal).2.state = journal.state := by
  cases decision with
  | complete answer =>
      exact ⟨.completes answer, rfl⟩
  | abort reason =>
      exact ⟨.aborts reason, rfl⟩
  | goOn plan =>
      cases isEmpty : plan.isEmpty with
      | true =>
          simp only [follow, isEmpty]
          exact ⟨.empty plan isEmpty, rfl⟩
      | false =>
          simp only [follow, isEmpty]
          exact ⟨.goesOn plan isEmpty, rfl⟩

theorem reviewResults_noted
    (crew : Crew σ)
    {journal : Journal}
    (isExecuting : journal.state.phase = .executing)
    (state : σ)
    (log : List Deed) :
    ∃ ending told,
      crew.noted.reviewResults journal (state, log) =
          ((crew.reviewResults journal state).1, (crew.reviewResults journal state).2.1,
            (crew.reviewResults journal state).2.2,
            log ++ [.reviewed journal.state.objective journal.state.results ⟨ending, told⟩]) ∧
        (crew.reviewResults journal state).2.1.state =
            { journal.state with phase := .replanning } ∧
          Follows ending (crew.reviewResults journal state).1 := by
  obtain ⟨entered, isEntered, isReplanning⟩ :=
    Journal.enter_of_allowed .replanning isExecuting (Or.inr rfl)
  have sameObjective : journal.state.objective = entered.state.objective := by
    rw [isReplanning]
  have sameResults : journal.state.results = entered.state.results := by
    rw [isReplanning]
  rw [sameObjective, sameResults, ← isReplanning]
  -- The review sees the journal as it is once the phase has been entered.
  cases isReviewed :
      crew.review entered.state.objective entered.state.results state with
  | mk reviewed later =>
      obtain ⟨ending, told⟩ := reviewed
      refine ⟨ending, told, ?_⟩
      cases ending with
      | brokeDown =>
          simp only [reviewResults, isEntered, review_noted, isReviewed]
          exact ⟨trivial, rfl, .breaksDown⟩
      | finished result =>
          cases result with
          | error fault =>
              simp only [reviewResults, isEntered, review_noted, isReviewed]
              exact ⟨trivial, rfl, .fails fault⟩
          | ok decision =>
              simp only [reviewResults, isEntered, review_noted, isReviewed]
              obtain ⟨follows, sameState⟩ := follows_follow decision
                (entered.tellAll (told.map .answerChunk))
              exact ⟨trivial, sameState, follows⟩

/-- A run that goes on has every result and is ready for the next iteration. -/
structure Leaves (before : RunState) (later : List Call) (next : Next Plan)
    (after : RunState) : Prop where
  state : after = { before with results := later, phase := after.phase }
  phase : ∀ plan, next = .goOn plan → after.phase = .replanning

theorem carryOutPlan_noted
    (crew : Crew σ)
    (plan : Plan)
    {journal : Journal}
    (isPlanning : journal.state.phase = .planning)
    (state : σ)
    (log : List Deed) :
    ∃ deeds later,
      crew.noted.carryOutPlan plan journal (state, log) =
          ((crew.carryOutPlan plan journal state).1, (crew.carryOutPlan plan journal state).2.1,
            (crew.carryOutPlan plan journal state).2.2, log ++ deeds) ∧
        Leaves journal.state later (crew.carryOutPlan plan journal state).1
            (crew.carryOutPlan plan journal state).2.1.state ∧
          Performs journal.state.objective journal.state.results plan deeds
            (crew.carryOutPlan plan journal state).1 later := by
  obtain ⟨entered, isEntered, isExecuting⟩ :=
    Journal.enter_of_allowed .executing isPlanning (Or.inr rfl)
  cases isCarried : crew.carryOut plan state with
  | mk carried performed =>
      cases carried with
      | brokeDown =>
          refine ⟨[.carriedOut plan .brokeDown], journal.state.results, ?_⟩
          simp only [carryOutPlan, isEntered, carryOut_noted, isCarried]
          exact ⟨trivial, ⟨by rw [isExecuting], nofun⟩, .breaksDown⟩
      | refused fault =>
          refine ⟨[.carriedOut plan (.refused fault)], journal.state.results, ?_⟩
          simp only [carryOutPlan, isEntered, carryOut_noted, isCarried]
          exact ⟨trivial, ⟨by rw [isExecuting], nofun⟩, .refused fault⟩
      | calls calls =>
          have isAdded :
              (entered.addResults calls).state =
                { journal.state with
                  results := journal.state.results ++ calls, phase := .executing } := by
            rw [show (entered.addResults calls).state = entered.state.addResults calls from rfl,
              isExecuting]
            rfl
          cases isLooked : crew.look performed with
          | mk ended looked =>
              cases ended with
              | some fault =>
                  refine ⟨[.carriedOut plan (.calls calls), .looked (some fault)],
                    journal.state.results ++ calls, ?_⟩
                  simp only [carryOutPlan, isEntered, carryOut_noted, look_noted, isCarried,
                    isLooked]
                  exact ⟨by simp, ⟨by rw [isAdded], nofun⟩, .cutOff calls fault⟩
              | none =>
                  obtain ⟨ending, told, isReviewed, isReplanning, follows⟩ :=
                    reviewResults_noted crew (by rw [isAdded]) looked
                      (log ++ [.carriedOut plan (.calls calls)] ++ [.looked none])
                  rw [isAdded] at isReviewed isReplanning
                  refine ⟨[.carriedOut plan (.calls calls), .looked none,
                    .reviewed journal.state.objective (journal.state.results ++ calls)
                      ⟨ending, told⟩],
                    journal.state.results ++ calls, ?_⟩
                  simp only [carryOutPlan, isEntered, carryOut_noted, look_noted, isCarried,
                    isLooked, isReviewed]
                  refine ⟨by simp, ⟨?_, fun _ _ => ?_⟩, .reviewed calls told follows⟩
                  · rw [isReplanning]
                  · rw [isReplanning]

/-- An iteration does one of these, and writing it down changes nothing. -/
theorem iterate_noted
    (crew : Crew σ)
    (pending : Option Plan)
    {journal : Journal}
    (mayPlan : journal.state.phase = .planning ∨ journal.state.phase = .replanning)
    (state : σ)
    (log : List Deed) :
    ∃ deeds later,
      crew.noted.iterate pending journal (state, log) =
          ((crew.iterate pending journal state).1, (crew.iterate pending journal state).2.1,
            (crew.iterate pending journal state).2.2, log ++ deeds) ∧
        Leaves journal.state.nextIteration later (crew.iterate pending journal state).1
            (crew.iterate pending journal state).2.1.state ∧
          Iterates journal.state.objective journal.state.results pending deeds
            (crew.iterate pending journal state).1 later := by
  obtain ⟨entered, isEntered, isPlanning⟩ :
      ∃ entered, journal.nextIteration.enter .planning = .ok entered ∧
        entered.state = { journal.state.nextIteration with phase := .planning } := by
    have sameState : journal.nextIteration.state.phase = journal.state.phase := rfl
    rcases mayPlan with isPlanning | isReplanning
    · exact Journal.enter_of_allowed .planning (sameState.trans isPlanning)
        (Or.inl ⟨rfl, rfl⟩)
    · exact Journal.enter_of_allowed .planning (sameState.trans isReplanning) (Or.inr rfl)
  have sameObjective : entered.state.objective = journal.state.objective := by
    rw [isPlanning]
    rfl
  have sameResults : entered.state.results = journal.state.results := by
    rw [isPlanning]
    rfl
  obtain ⟨opening, isChosen, chooses⟩ := choosePlan_noted crew pending entered state log
  rw [sameObjective, sameResults] at chooses
  cases chosen : crew.choosePlan pending entered state with
  | mk choice chosenState =>
      rw [chosen] at isChosen chooses
      cases choice with
      | ended ending =>
          refine ⟨opening, journal.state.results, ?_⟩
          simp only [iterate, isEntered, chosen, isChosen]
          exact ⟨trivial, ⟨by rw [isPlanning]; rfl, nofun⟩, .stops chooses⟩
      | goOn choice =>
          obtain ⟨plan, source⟩ := choice
          have sameState : (entered.adopt plan source).state = entered.state := rfl
          obtain ⟨body, later, isPerformed, leaves, performs⟩ :=
            carryOutPlan_noted crew plan (by rw [sameState, isPlanning]) chosenState
              (log ++ opening)
          rw [sameState] at leaves performs
          rw [sameObjective, sameResults] at performs
          refine ⟨opening ++ body, later, ?_⟩
          simp only [iterate, isEntered, chosen, isChosen, isPerformed]
          refine ⟨by simp, ⟨?_, leaves.phase⟩, .performs chooses performs⟩
          rw [leaves.state, isPlanning]

end Crew

end Runbook
