import Runbook.Model.Review
import Runbook.Proofs.Retry
import Runbook.Run.Report

namespace Runbook

/-!
# Runs with a record

Somebody may keep a record beside all that a run works on.  If each of those who take part does
with the record what it does without it, then so does the whole run, and what is said of the
run with its record holds of the run itself.
-/

section

variable {ρ σ α β : Type} (view : ρ → σ)

/-- What is done with a record is done without it in the same way; `view` leaves the record
out. -/
def Reflects (recorded : ρ → α × ρ) (plain : σ → α × σ) : Prop :=
  ∀ state, plain (view state) = ((recorded state).1, view (recorded state).2)

/-- The same of what tells two things. -/
def ReflectsBoth (recorded : ρ → α × β × ρ) (plain : σ → α × β × σ) : Prop :=
  ∀ state,
    plain (view state) =
      ((recorded state).1, (recorded state).2.1, view (recorded state).2.2)

/-- Work that is done with a record, turn by turn. -/
inductive Work.Mirrors : Work ρ α → Work σ α → Prop where
  | last {take : ρ → α × ρ} {plain : σ → α × σ} :
      Reflects view take plain →
      Mirrors (.last take) (.last plain)
  | turn {take : ρ → Option α × ρ} {plain : σ → Option α × σ} {rest : ρ → Work ρ α}
      {plainRest : σ → Work σ α} :
      Reflects view take plain →
      (∀ state, Mirrors (rest state) (plainRest (view state))) →
      Mirrors (.turn take rest) (.turn plain plainRest)

structure Surroundings.Mirrors (recorded : Surroundings ρ α) (plain : Surroundings σ α) :
    Prop where
  look : Reflects view recorded.look plain.look
  rest : ∀ time, Reflects view (recorded.rest time) (plain.rest time)
  attempt : ∀ number, Reflects view (recorded.attempt number) (plain.attempt number)

structure Gate.Mirrors (recorded : Gate ρ) (plain : Gate σ) : Prop where
  ask : Reflects view recorded.ask plain.ask
  succeed : ∀ state, plain.succeed (view state) = view (recorded.succeed state)
  fail : Reflects view recorded.fail plain.fail

structure ModelAccess.Mirrors (recorded : ModelAccess ρ) (plain : ModelAccess σ) : Prop where
  look : Reflects view recorded.look plain.look
  done : Reflects view recorded.done plain.done
  sleep : ∀ time, Work.Mirrors view (recorded.sleep time) (plain.sleep time)
  gate : Gate.Mirrors view recorded.gate plain.gate
  client : ∀ conversation,
    Work.Mirrors view (recorded.client conversation) (plain.client conversation)
  streamer : ∀ conversation,
    Work.Mirrors view (recorded.streamer conversation) (plain.streamer conversation)
  next : ∀ time, Work.Mirrors view (recorded.next time) (plain.next time)

structure Crew.Mirrors (recorded : Crew ρ) (plain : Crew σ) : Prop where
  look : Reflects view recorded.look plain.look
  done : Reflects view recorded.done plain.done
  planner : ∀ objective results,
    Work.Mirrors view (recorded.planner objective results) (plain.planner objective results)
  carryOut : ∀ plan, Reflects view (recorded.carryOut plan) (plain.carryOut plan)
  reviewer : ∀ objective results,
    Work.Mirrors (Prod.map view id) (recorded.reviewer objective results)
      (plain.reviewer objective results)

end

variable {ρ σ α : Type} {view : ρ → σ}

section Races

theorem reflects_aside
    {τ : Type}
    {recorded : ρ → α × ρ}
    {plain : σ → α × σ}
    (reflects : Reflects view recorded plain) :
    Reflects (Prod.map view id) (Work.aside recorded : ρ × τ → α × ρ × τ)
      (Work.aside plain) := by
  intro state
  simp only [Work.aside, Prod.map_fst, Prod.map_snd, reflects state.1, Prod.map_apply, id]

variable {done : ρ → Option Fault × ρ} {plainDone : σ → Option Fault × σ}

/-- A race goes the same with a record and without. -/
theorem Work.Mirrors.race
    {work : Work ρ α}
    {plain : Work σ α}
    (mirrors : Work.Mirrors view work plain)
    (mirrorsDone : Reflects view done plainDone) :
    Reflects view (work.race done) (plain.race plainDone) := by
  induction mirrors with
  | last reflects =>
      intro state
      unfold Work.race
      rw [mirrorsDone]
      rcases done state with ⟨_ | fault, after⟩
      · dsimp only
        rw [reflects]
      · rfl
  | @turn take plain rest plainRest reflects _ inductionHypothesis =>
      intro state
      unfold Work.race
      rw [mirrorsDone]
      rcases done state with ⟨_ | fault, after⟩
      · dsimp only
        rw [reflects]
        rcases take after with ⟨_ | value, later⟩
        · exact inductionHypothesis after later
        · rfl
      · rfl

theorem Work.Mirrors.await
    {work : Work ρ Unit}
    {plain : Work σ Unit}
    (mirrors : Work.Mirrors view work plain)
    (mirrorsDone : Reflects view done plainDone) :
    Reflects view (work.await done) (plain.await plainDone) := by
  intro state
  unfold Work.await
  rw [mirrors.race mirrorsDone]
  match work.race done state with
  | (.error fault, after) =>
      rfl
  | (.ok (), after) =>
      rfl

theorem Work.Mirrors.guarded
    {work : Work ρ (Ending α)}
    {plain : Work σ (Ending α)}
    (mirrors : Work.Mirrors view work plain)
    (mirrorsDone : Reflects view done plainDone) :
    Reflects view (work.guarded done) (plain.guarded plainDone) := by
  intro state
  unfold Work.guarded
  rw [mirrors.race mirrorsDone]
  match work.race done state with
  | (.error fault, after) =>
      rfl
  | (.ok ending, after) =>
      rfl

theorem Work.Mirrors.beside
    {τ : Type}
    {work : Work ρ α}
    {plain : Work σ α}
    (mirrors : Work.Mirrors view work plain) :
    Work.Mirrors (Prod.map view id) (work.beside : Work (ρ × τ) α) plain.beside := by
  induction mirrors with
  | last reflects =>
      exact .last (reflects_aside reflects)
  | turn reflects _ inductionHypothesis =>
      exact .turn (reflects_aside reflects) fun state => inductionHypothesis state.1

end Races

section Retries

variable {recorded : Surroundings ρ α} {plain : Surroundings σ α}

theorem Surroundings.Mirrors.carryOn
    (mirrors : recorded.Mirrors view plain)
    (policy : RetryPolicy)
    (fuel : Nat)
    (stage : Stage α) :
    Reflects view (Retry.carryOn policy recorded fuel stage)
      (Retry.carryOn policy plain fuel stage) := by
  intro state
  induction fuel generalizing stage state with
  | zero =>
      cases stage <;> rfl
  | succ fuel inductionHypothesis =>
      cases stage with
      | ended ending =>
          rfl
      | attempting attempt =>
          rw [Retry.carryOn_attempting, Retry.carryOn_attempting, mirrors.attempt]
          exact inductionHypothesis _ _
      | resting attempt =>
          rw [Retry.carryOn_resting, Retry.carryOn_resting, mirrors.rest]
          cases recorded.rest (policy.delayBefore attempt) state with
          | mk ended rested =>
              cases ended with
              | some fault =>
                  rfl
              | none =>
                  dsimp only
                  rw [mirrors.look]
                  exact inductionHypothesis _ _

theorem Surroundings.Mirrors.run
    (mirrors : recorded.Mirrors view plain)
    (policy : RetryPolicy) :
    Reflects view (Retry.run policy recorded) (Retry.run policy plain) := by
  intro state
  unfold Retry.run
  rw [mirrors.look]
  exact mirrors.carryOn policy (2 * policy.attempts) _ _

theorem Gate.Mirrors.report
    {recordedGate : Gate ρ}
    {plainGate : Gate σ}
    (mirrors : recordedGate.Mirrors view plainGate)
    (ending : Ending α) :
    Reflects view (recordedGate.report ending) (plainGate.report ending) := by
  intro state
  unfold Gate.report
  split
  · rw [mirrors.succeed]
  · rfl
  · rw [mirrors.fail]

theorem Gate.Mirrors.run
    {recordedGate : Gate ρ}
    {plainGate : Gate σ}
    (mirrors : recordedGate.Mirrors view plainGate)
    (mirrorsAround : recorded.Mirrors view plain)
    (policy : RetryPolicy) :
    Reflects view (recordedGate.run policy recorded) (plainGate.run policy plain) := by
  intro state
  unfold Gate.run
  rw [mirrors.ask]
  cases recordedGate.ask state with
  | mk refusal admitted =>
      cases refusal with
      | some fault =>
          rfl
      | none =>
          dsimp only
          rw [mirrorsAround.run policy]
          exact mirrors.report _ _

end Retries

namespace ModelAccess.Mirrors

variable {recorded : ModelAccess ρ} {plain : ModelAccess σ}

theorem surroundings
    (mirrors : recorded.Mirrors view plain)
    {question : ρ → Except Fault (Except String α) × ρ}
    {plainQuestion : σ → Except Fault (Except String α) × σ}
    (mirrorsQuestion : Reflects view question plainQuestion) :
    (recorded.surroundings question).Mirrors view (plain.surroundings plainQuestion) where
  look := mirrors.look
  rest time := (mirrors.sleep time).await mirrors.done
  attempt number state := by
    unfold ModelAccess.surroundings
    dsimp only
    rw [mirrorsQuestion]

theorem ask
    (mirrors : recorded.Mirrors view plain)
    (policy : RetryPolicy)
    (conversation : Conversation) :
    Reflects view (recorded.ask policy conversation) (plain.ask policy conversation) :=
  mirrors.gate.run
    (mirrors.surroundings ((mirrors.client conversation).race mirrors.done)) policy

theorem openStream
    (mirrors : recorded.Mirrors view plain)
    (policy : RetryPolicy)
    (conversation : Conversation) :
    Reflects view (recorded.openStream policy conversation)
      (plain.openStream policy conversation) :=
  mirrors.gate.run
    (mirrors.surroundings ((mirrors.streamer conversation).race mirrors.done)) policy

theorem receive
    (mirrors : recorded.Mirrors view plain)
    (came : List String)
    (pieces : List Piece) :
    ReflectsBoth view (recorded.receive came pieces) (plain.receive came pieces) := by
  intro state
  induction pieces generalizing came state with
  | nil =>
      unfold ModelAccess.receive
      rw [mirrors.done]
      cases recorded.done state with
      | mk ended after =>
          cases ended <;> rfl
  | cons piece rest inductionHypothesis =>
      have arrives : Reflects view (recorded.arrive piece.delay) (plain.arrive piece.delay) :=
        (mirrors.next piece.delay).await mirrors.done
      unfold ModelAccess.receive
      rw [arrives]
      cases recorded.arrive piece.delay state with
      | mk ended after =>
          cases ended with
          | some fault =>
              rfl
          | none =>
              dsimp only
              split
              · rfl
              · exact inductionHypothesis _ _

theorem askInPieces
    (mirrors : recorded.Mirrors view plain)
    (policy : RetryPolicy)
    (conversation : Conversation) :
    ReflectsBoth view (recorded.askInPieces policy conversation)
      (plain.askInPieces policy conversation) := by
  intro state
  unfold ModelAccess.askInPieces
  rw [mirrors.openStream]
  match recorded.openStream policy conversation state with
  | (.brokeDown, after) =>
      rfl
  | (.finished (.error fault), after) =>
      rfl
  | (.finished (.ok pieces), after) =>
      exact mirrors.receive [] pieces after

theorem plan
    (mirrors : recorded.Mirrors view plain)
    (policy : RetryPolicy)
    (tools objective : String)
    (results : List Call) :
    Reflects view (Planning.plan recorded policy tools objective results)
      (Planning.plan plain policy tools objective results) := by
  intro state
  unfold Planning.plan
  dsimp only
  rw [mirrors.ask]

theorem write
    (mirrors : recorded.Mirrors view plain)
    (policy : RetryPolicy)
    (objective : String)
    (results : List Call) :
    Reflects view (Review.write recorded policy objective results)
      (Review.write plain policy objective results) := by
  intro state
  unfold Review.write
  dsimp only
  rw [mirrors.askInPieces]

theorem review
    (mirrors : recorded.Mirrors view plain)
    (policy : RetryPolicy)
    (tools objective : String)
    (results : List Call) :
    Reflects view (Review.review recorded policy tools objective results)
      (Review.review plain policy tools objective results) := by
  intro state
  unfold Review.review
  dsimp only
  rw [mirrors.ask]
  match recorded.ask policy (Prompt.conversation (Prompt.reviewer tools) objective results)
    state with
  | (.brokeDown, after) =>
      rfl
  | (.finished (.error fault), after) =>
      rfl
  | (.finished (.ok reply), after) =>
      dsimp only
      split
      · rfl
      · split
        · rfl
        · exact mirrors.write policy objective results after

theorem telling
    {recorded : ρ → Reviewed × ρ}
    {plain : σ → Reviewed × σ}
    (reflects : Reflects view recorded plain) :
    Work.Mirrors (Prod.map view id) (Review.telling recorded) (Review.telling plain) := by
  refine .last fun state => ?_
  simp only [Prod.map_fst, Prod.map_snd, reflects state.1, Prod.map_apply, id]

end ModelAccess.Mirrors

namespace Crew.Mirrors

variable {recorded : Crew ρ} {plain : Crew σ}

theorem plan
    (mirrors : recorded.Mirrors view plain)
    (objective : String)
    (results : List Call) :
    Reflects view (recorded.plan objective results) (plain.plan objective results) :=
  (mirrors.planner objective results).guarded mirrors.done

theorem review
    (mirrors : recorded.Mirrors view plain)
    (objective : String)
    (results : List Call) :
    Reflects view (recorded.review objective results) (plain.review objective results) := by
  intro state
  have guards :=
    (mirrors.reviewer objective results).guarded (reflects_aside mirrors.done) (state, [])
  rw [Prod.map_apply, id] at guards
  unfold Crew.review
  rw [guards]
  rfl

theorem choosePlan
    (mirrors : recorded.Mirrors view plain)
    (pending : Option Plan)
    (journal : Journal) :
    Reflects view (recorded.choosePlan pending journal)
      (plain.choosePlan pending journal) := by
  intro state
  cases pending with
  | some plan =>
      rfl
  | none =>
      unfold Crew.choosePlan
      dsimp only
      rw [mirrors.plan]
      match recorded.plan journal.state.objective journal.state.results state with
      | (.brokeDown, later) =>
          rfl
      | (.finished (.error fault), later) =>
          rfl
      | (.finished (.ok plan), later) =>
          dsimp only
          split <;> rfl

theorem reviewResults
    (mirrors : recorded.Mirrors view plain)
    (journal : Journal) :
    ReflectsBoth view (recorded.reviewResults journal) (plain.reviewResults journal) := by
  intro state
  unfold Crew.reviewResults
  split
  · rfl
  · rename_i entered _
    have reviews := mirrors.review entered.state.objective entered.state.results state
    cases isReviewed :
        recorded.review entered.state.objective entered.state.results state with
    | mk outcome later =>
        obtain ⟨ending, told⟩ := outcome
        rw [isReviewed] at reviews
        simp only [reviews]
        match ending with
        | .brokeDown =>
            rfl
        | .finished (.error fault) =>
            rfl
        | .finished (.ok decision) =>
            rfl

theorem carryOutPlan
    (mirrors : recorded.Mirrors view plain)
    (plan : Plan)
    (journal : Journal) :
    ReflectsBoth view (recorded.carryOutPlan plan journal)
      (plain.carryOutPlan plan journal) := by
  intro state
  unfold Crew.carryOutPlan
  split
  · rfl
  · rw [mirrors.carryOut]
    match recorded.carryOut plan state with
    | (.brokeDown, after) =>
        rfl
    | (.refused fault, after) =>
        rfl
    | (.calls results, after) =>
        dsimp only
        rw [mirrors.look]
        match recorded.look after with
        | (some fault, later) =>
            rfl
        | (none, later) =>
            exact mirrors.reviewResults _ later

theorem iterate
    (mirrors : recorded.Mirrors view plain)
    (pending : Option Plan)
    (journal : Journal) :
    ReflectsBoth view (recorded.iterate pending journal) (plain.iterate pending journal) := by
  intro state
  unfold Crew.iterate
  dsimp only
  split
  · rfl
  · rw [mirrors.choosePlan]
    match recorded.choosePlan pending _ state with
    | (.ended ending, after) =>
        rfl
    | (.goOn (plan, source), after) =>
        exact mirrors.carryOutPlan plan _ after

theorem carryOn
    (mirrors : recorded.Mirrors view plain)
    (limit left : Nat)
    (pending : Option Plan)
    (journal : Journal) :
    ReflectsBoth view (recorded.carryOn limit left pending journal)
      (plain.carryOn limit left pending journal) := by
  intro state
  induction left generalizing pending journal state with
  | zero =>
      unfold Crew.carryOn
      rw [mirrors.look]
      cases recorded.look state with
      | mk ended after =>
          cases ended <;> rfl
  | succ left inductionHypothesis =>
      unfold Crew.carryOn
      rw [mirrors.look]
      match recorded.look state with
      | (some fault, after) =>
          rfl
      | (none, after) =>
          dsimp only
          rw [mirrors.iterate]
          match recorded.iterate pending journal after with
          | (.ended ending, _, later) =>
              rfl
          | (.goOn plan, _, later) =>
              exact inductionHypothesis _ _ _

/-- A run reports the same with a record and without. -/
theorem run
    (mirrors : recorded.Mirrors view plain)
    (limit : Nat)
    (runId objective : String) :
    Reflects view (recorded.run limit runId objective)
      (plain.run limit runId objective) := by
  intro state
  unfold Crew.run
  rw [mirrors.carryOn]
  match recorded.carryOn (iterations limit) (iterations limit) none (.start runId objective)
    state with
  | (.brokeDown, _, later) =>
      rfl
  | (.finished result, _, later) =>
      rfl

end Crew.Mirrors

end Runbook
