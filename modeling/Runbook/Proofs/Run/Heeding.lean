import Runbook.Model.Review
import Runbook.Proofs.Retry
import Runbook.Proofs.Run.Errands

namespace Runbook

open RunEvent

/-!
# Work that heeds the end of the context

Whatever is started while the context of a run goes on races with its end.  If the context
ends first, the work is dropped and ends with the fault of the context, as it is: neither a
retry nor a stage of the run makes another fault of it.  So no check of the context is left
out, from the loop of a run down to the single piece of a streamed answer.
-/

/-- Whether an ending is the end of a context. -/
def Ending.IsCut {α : Type} (ending : Ending α) : Prop :=
  ∃ fault : Fault, fault.endsContext = true ∧ ending = .fault fault

section

variable {α : Type}

@[simp] theorem isCut_fault_iff
    {fault : Fault} :
    (Ending.finished (.error fault) : Ending α).IsCut ↔ fault.endsContext = true := by
  simp [Ending.IsCut, Ending.fault]

@[simp] theorem not_isCut_value
    (value : α) :
    ¬ (Ending.finished (.ok value)).IsCut := by
  simp [Ending.IsCut, Ending.fault]

@[simp] theorem not_isCut_brokeDown :
    ¬ (Ending.brokeDown : Ending α).IsCut := by
  simp [Ending.IsCut, Ending.fault]

end

/-- Something was done that leads from one history to another.  It started nothing after the
end of the context, and if that cut it short, it was cut off. -/
structure Heeded (before after : List RunEvent) (isCut : Prop) : Prop where
  grows : before <+: after
  orderly : Orderly after
  cutOff : CutShort after → isCut

/-- The context goes on, or it ended as the planner or the reviewer returned. -/
structure Steady (history : List RunEvent) : Prop where
  orderly : Orderly history
  notCut : ¬ CutShort history

namespace Heeded

variable {before between after : List RunEvent} {isCut isCutLater : Prop}

theorem of_steady
    (steady : Steady before)
    (isCut : Prop) :
    Heeded before before isCut :=
  ⟨List.prefix_rfl, steady.orderly, fun cutShort => absurd cutShort steady.notCut⟩

theorem imp
    (heeded : Heeded before after isCut)
    (implies : isCut → isCutLater) :
    Heeded before after isCutLater :=
  ⟨heeded.grows, heeded.orderly, implies ∘ heeded.cutOff⟩

theorem andThen
    (first : Heeded before between isCut)
    (second : Heeded between after isCutLater) :
    Heeded before after isCutLater :=
  ⟨first.grows.trans second.grows, second.orderly, second.cutOff⟩

/-- Who was not cut off goes on. -/
theorem steady
    (heeded : Heeded before after isCut)
    (notCut : ¬ isCut) :
    Steady after :=
  ⟨heeded.orderly, notCut ∘ heeded.cutOff⟩

end Heeded

/-- At most the context ends. -/
def Passes (before after : List RunEvent) : Prop :=
  ∃ ends, (∀ event ∈ ends, event.IsEnd) ∧ after = before ++ ends

/-- Somebody looks whether the context has ended. -/
structure Looked (before after : List RunEvent) (ended : Option Fault) : Prop where
  passes : Passes before after
  goesOn : ended = none → ¬ HasEnded after
  byContext : ∀ fault, ended = some fault → fault.endsContext = true

/-- Somebody returns, and the context may end in that very turn. -/
def Returns (before after : List RunEvent) : Prop :=
  after = before ∨
    ∃ fault : Fault, fault.endsContext = true ∧ after = before ++ [.contextEnded fault true]

/-- Work that starts nothing but what is noted when it begins.  The context may end in any of
its turns; what may happen in a turn that returns is said apart. -/
def Work.OnlyStarts {σ α : Type} (history : σ → List RunEvent)
    (returns : List RunEvent → List RunEvent → Prop) :
    (started : List RunEvent) → Work σ α → Prop
  | started, .last take =>
      ∀ state, returns (history state ++ started) (history (take state).2)
  | started, .turn take rest =>
      ∀ state,
        ((take state).1 ≠ none →
            returns (history state ++ started) (history (take state).2)) ∧
          ((take state).1 = none →
              Passes (history state ++ started) (history (take state).2)) ∧
            OnlyStarts history returns [] (rest state)

section

variable {before after : List RunEvent} {isCut : Prop}

theorem steady_of_not_hasEnded
    (goesOn : ¬ HasEnded before) :
    Steady before :=
  ⟨orderly_of_not_hasEnded goesOn, fun cutShort => goesOn cutShort.hasEnded⟩

/-- What is started while the context goes on ends nothing. -/
theorem Heeded.of_started
    {started : List RunEvent}
    (noEnd : ¬ HasEnded started)
    (goesOn : ¬ HasEnded before) :
    Heeded before (before ++ started) False := by
  have goesOnStill : ¬ HasEnded (before ++ started) := by
    rw [hasEnded_append]
    exact not_or_intro goesOn noEnd
  have steady := steady_of_not_hasEnded goesOnStill
  exact ⟨List.prefix_append .., steady.orderly, steady.notCut⟩

theorem Passes.refl
    (history : List RunEvent) :
    Passes history history :=
  ⟨[], nofun, (List.append_nil history).symm⟩

theorem Passes.trans
    {between : List RunEvent}
    (first : Passes before between)
    (second : Passes between after) :
    Passes before after := by
  obtain ⟨ends, areEnds, rfl⟩ := first
  obtain ⟨more, areMoreEnds, rfl⟩ := second
  exact ⟨ends ++ more, List.forall_mem_append.mpr ⟨areEnds, areMoreEnds⟩,
    List.append_assoc ..⟩

theorem Passes.heeded
    (passes : Passes before after)
    (orderly : Orderly before)
    (cutOff : CutShort after → isCut) :
    Heeded before after isCut := by
  obtain ⟨ends, areEnds, rfl⟩ := passes
  have startsNothing : ∀ event ∈ ends, event.starts = false :=
    fun event isEnd => (areEnds event isEnd).starts_eq_false
  exact ⟨List.prefix_append .., orderly.append (orderly_of_starts_eq_false startsNothing)
    fun _ => startsNothing, cutOff⟩

theorem Looked.heeded
    {ended : Option Fault}
    (looked : Looked before after ended)
    (orderly : Orderly before) :
    Heeded before after (ended ≠ none) :=
  looked.passes.heeded orderly fun cutShort isNone => looked.goesOn isNone cutShort.hasEnded

/-- Who looks and finds a fault is cut off by it. -/
theorem Looked.isCut_of_fault
    {α : Type}
    {fault : Fault}
    (looked : Looked before after (some fault)) :
    (Ending.finished (.error fault) : Ending α).IsCut :=
  isCut_fault_iff.mpr (looked.byContext fault rfl)

/-- Whoever has heeded the end of the context returns. -/
theorem Heeded.returns
    {between : List RunEvent}
    (heeded : Heeded before between isCut)
    (returns : Returns between after) :
    Heeded before after isCut := by
  rcases returns with rfl | ⟨fault, -, rfl⟩
  · exact heeded
  · have startsNothing : ∀ event ∈ [RunEvent.contextEnded fault true], event.starts = false :=
      List.forall_mem_singleton.mpr rfl
    exact ⟨heeded.grows.trans (List.prefix_append ..),
      heeded.orderly.append (orderly_of_starts_eq_false startsNothing) fun _ => startsNothing,
      heeded.cutOff ∘ cutShort_of_concat⟩

end

section Races

variable {σ α : Type} {history : σ → List RunEvent} {done : σ → Option Fault × σ} {state : σ}

/-- The end of the context is looked at before each turn of a race, and it alone cuts the work
off. -/
theorem Work.OnlyStarts.race
    {started : List RunEvent}
    {work : Work σ α}
    (only : work.OnlyStarts history Returns started)
    (waits : ∀ state, Looked (history state) (history (done state).2) (done state).1)
    (noEnd : ¬ HasEnded started)
    (orderly : Orderly (history state)) :
    let raced := work.race done state
    Heeded (history state) (history raced.2)
      (∃ fault, fault.endsContext = true ∧ raced.1 = .error fault) := by
  -- The induction is on the work; before each turn the context goes on.
  induction work generalizing state started with
  | last take =>
      have looked := waits state
      have looks := looked.heeded orderly
      cases isLooked : done state with
      | mk ended after =>
          rw [isLooked] at looked looks
          cases ended with
          | some fault =>
              rw [race_of_ended isLooked]
              exact looks.imp fun _ => ⟨fault, looked.byContext fault rfl, rfl⟩
          | none =>
              have takes := (Heeded.of_started noEnd (looked.goesOn rfl)).returns (only after)
              rw [race_last isLooked]
              exact looks.andThen (takes.imp False.elim)
  | turn take rest inductionHypothesis =>
      have looked := waits state
      have looks := looked.heeded orderly
      cases isLooked : done state with
      | mk ended after =>
          rw [isLooked] at looked looks
          cases ended with
          | some fault =>
              rw [race_of_ended isLooked]
              exact looks.imp fun _ => ⟨fault, looked.byContext fault rfl, rfl⟩
          | none =>
              have starts := Heeded.of_started noEnd (looked.goesOn rfl)
              obtain ⟨returns, passes, onlyRest⟩ := only after
              cases isTaken : take after with
              | mk value later =>
                  rw [isTaken] at returns passes
                  cases value with
                  | some value =>
                      have takes := starts.returns (returns (Option.some_ne_none value))
                      rw [race_of_returns isLooked isTaken]
                      exact looks.andThen (takes.imp False.elim)
                  | none =>
                      have takes := (passes rfl).heeded starts.orderly fun _ => trivial
                      rw [race_of_waits isLooked isTaken]
                      exact looks.andThen (starts.andThen (takes.andThen
                        (inductionHypothesis after onlyRest not_hasEnded_nil takes.orderly)))

/-- While work races that starts nothing, at most the context ends. -/
theorem Work.OnlyStarts.race_passes
    {work : Work σ α}
    (only : work.OnlyStarts history Passes [])
    (waits : ∀ state, Looked (history state) (history (done state).2) (done state).1)
    (state : σ) :
    let raced := work.race done state
    Passes (history state) (history raced.2) ∧
      ∀ fault, raced.1 = .error fault → fault.endsContext = true := by
  induction work generalizing state with
  | last take =>
      have looked := waits state
      cases isLooked : done state with
      | mk ended after =>
          rw [isLooked] at looked
          cases ended with
          | some fault =>
              rw [race_of_ended isLooked]
              refine ⟨looked.passes, ?_⟩
              rintro _ ⟨⟩
              exact looked.byContext fault rfl
          | none =>
              have takes := only after
              rw [List.append_nil] at takes
              rw [race_last isLooked]
              exact ⟨looked.passes.trans takes, nofun⟩
  | turn take rest inductionHypothesis =>
      have looked := waits state
      cases isLooked : done state with
      | mk ended after =>
          rw [isLooked] at looked
          cases ended with
          | some fault =>
              rw [race_of_ended isLooked]
              refine ⟨looked.passes, ?_⟩
              rintro _ ⟨⟩
              exact looked.byContext fault rfl
          | none =>
              obtain ⟨returns, passes, onlyRest⟩ := only after
              rw [List.append_nil] at returns passes
              cases isTaken : take after with
              | mk value later =>
                  rw [isTaken] at returns passes
                  cases value with
                  | some value =>
                      rw [race_of_returns isLooked isTaken]
                      exact ⟨looked.passes.trans (returns (Option.some_ne_none value)), nofun⟩
                  | none =>
                      obtain ⟨rests, byContext⟩ := inductionHypothesis after onlyRest later
                      rw [race_of_waits isLooked isTaken]
                      exact ⟨looked.passes.trans ((passes rfl).trans rests), byContext⟩

theorem Work.OnlyStarts.await
    {work : Work σ Unit}
    (only : work.OnlyStarts history Passes [])
    (waits : ∀ state, Looked (history state) (history (done state).2) (done state).1)
    (state : σ) :
    Passes (history state) (history (work.await done state).2) ∧
      ∀ fault, (work.await done state).1 = some fault → fault.endsContext = true := by
  obtain ⟨passes, byContext⟩ := only.race_passes waits state
  unfold Work.await
  match work.race done state, passes, byContext with
  | (.error fault, after), passes, byContext =>
      refine ⟨passes, ?_⟩
      rintro _ ⟨⟩
      exact byContext fault rfl
  | (.ok (), after), passes, _ =>
      exact ⟨passes, nofun⟩

/-- Something beside the work takes no part in what has happened. -/
theorem Work.OnlyStarts.beside
    {τ : Type}
    {started : List RunEvent}
    {returns : List RunEvent → List RunEvent → Prop}
    {work : Work σ α}
    (only : work.OnlyStarts history returns started) :
    (work.beside : Work (σ × τ) α).OnlyStarts (fun state => history state.1) returns
      started := by
  induction work generalizing started with
  | last take =>
      exact fun state => only state.1
  | turn take rest inductionHypothesis =>
      intro state
      obtain ⟨whenReturns, whenWaits, onlyRest⟩ := only state.1
      exact ⟨whenReturns, whenWaits, inductionHypothesis state.1 onlyRest⟩

/-- A stage whose work races is cut off if the context ends before it returns. -/
theorem Work.OnlyStarts.guarded
    {started : List RunEvent}
    {work : Work σ (Ending α)}
    (only : work.OnlyStarts history Returns started)
    (waits : ∀ state, Looked (history state) (history (done state).2) (done state).1)
    (noEnd : ¬ HasEnded started)
    (orderly : Orderly (history state)) :
    let guarded := work.guarded done state
    Heeded (history state) (history guarded.2) guarded.1.IsCut := by
  have raced := only.race waits noEnd orderly
  unfold Work.guarded
  match work.race done state, raced with
  | (.error fault, after), raced =>
      refine raced.imp ?_
      rintro ⟨_, endsContext, isFault⟩
      cases isFault
      exact isCut_fault_iff.mpr endsContext
  | (.ok ending, after), raced =>
      refine raced.imp ?_
      rintro ⟨_, -, isFault⟩
      cases isFault

/-- A stage that waits in races of its own is cut off if these are. -/
theorem heeded_guarded_last
    {take : σ → Ending α × σ}
    (waits : ∀ state, Looked (history state) (history (done state).2) (done state).1)
    (heeds : ∀ state, ¬ HasEnded (history state) →
      Heeded (history state) (history (take state).2) (take state).1.IsCut)
    (orderly : Orderly (history state)) :
    let guarded := (Work.last take).guarded done state
    Heeded (history state) (history guarded.2) guarded.1.IsCut := by
  have looked := waits state
  have looks := looked.heeded orderly
  unfold Work.guarded
  cases isLooked : done state with
  | mk ended after =>
      rw [isLooked] at looked looks
      cases ended with
      | some fault =>
          rw [Work.race_of_ended isLooked]
          exact looks.imp fun _ => looked.isCut_of_fault
      | none =>
          rw [Work.race_last isLooked]
          exact looks.andThen (heeds after (looked.goesOn rfl))

end Races

section Retries

variable {σ α : Type} (history : σ → List RunEvent)

/-- Surroundings of a retried operation that heed the end of the context. -/
structure Surroundings.Heeds (around : Surroundings σ α) : Prop where
  look : ∀ state,
    Looked (history state) (history (around.look state).2) (around.look state).1
  rest : ∀ time state,
    Passes (history state) (history (around.rest time state).2) ∧
      ∀ fault, (around.rest time state).1 = some fault → fault.endsContext = true
  attempt : ∀ number state, ¬ HasEnded (history state) →
    Heeded (history state) (history (around.attempt number state).2)
      (around.attempt number state).1.IsCut

/-- A gate that has nothing to do with the context. -/
structure Gate.Unseen (gate : Gate σ) : Prop where
  ask : ∀ state, history (gate.ask state).2 = history state
  succeed : ∀ state, history (gate.succeed state) = history state
  fail : ∀ state, history (gate.fail state).2 = history state

variable {history} {around : Surroundings σ α} {gate : Gate σ}

/-- An attempt that was cut off is not repeated. -/
theorem Stage.afterAttempt_of_isCut
    {ending : Ending α}
    (isCut : ending.IsCut)
    (policy : RetryPolicy)
    (attempt : Nat) :
    Stage.afterAttempt policy attempt ending = .ended ending := by
  obtain ⟨fault, endsContext, rfl⟩ := isCut
  simp [Ending.fault, Stage.afterAttempt, endsContext]

/-- What is known at a stage: at an attempt the context goes on, and an operation that was cut
short is over and cut off. -/
def Stage.Stands (history : List RunEvent) : Stage α → Prop
  | attempting _ => ¬ HasEnded history
  | resting _ => ¬ CutShort history
  | ended ending => CutShort history → ending.IsCut

theorem Stage.stands_enter
    {before after : List RunEvent}
    {ended : Option Fault}
    (looked : Looked before after ended)
    (attempt : Nat) :
    (Stage.enter attempt ended : Stage α).Stands after := by
  cases ended with
  | none =>
      exact looked.goesOn rfl
  | some fault =>
      exact fun _ => looked.isCut_of_fault

theorem Stage.stands_afterAttempt
    {after : List RunEvent}
    {ending : Ending α}
    (cutOff : CutShort after → ending.IsCut)
    (policy : RetryPolicy)
    (attempt : Nat) :
    (Stage.afterAttempt policy attempt ending).Stands after := by
  by_cases cutShort : CutShort after
  · rw [Stage.afterAttempt_of_isCut (cutOff cutShort)]
    exact cutOff
  · rcases Retry.afterAttempt_eq policy attempt ending with ⟨last, isOver⟩ | ⟨-, isResting⟩
    · rw [isOver]
      exact fun isCut => absurd isCut cutShort
    · rw [isResting]
      exact cutShort

theorem Surroundings.Heeds.carryOn
    (heeds : around.Heeds history)
    (policy : RetryPolicy)
    (fuel : Nat)
    {stage : Stage α}
    {state : σ}
    (stands : stage.Stands (history state))
    (orderly : Orderly (history state)) :
    let carried := Retry.carryOn policy around fuel stage state
    Heeded (history state) (history carried.2) carried.1.IsCut := by
  -- The induction is on the fuel; each attempt is made while the context goes on.
  induction fuel generalizing stage state with
  | zero =>
      cases stage with
      | ended ending =>
          exact ⟨List.prefix_rfl, orderly, stands⟩
      | attempting attempt =>
          exact .of_steady (steady_of_not_hasEnded stands) _
      | resting attempt =>
          exact .of_steady ⟨orderly, stands⟩ _
  | succ fuel inductionHypothesis =>
      cases stage with
      | ended ending =>
          exact ⟨List.prefix_rfl, orderly, stands⟩
      | attempting attempt =>
          have attempted := heeds.attempt attempt state stands
          rw [Retry.carryOn_attempting]
          exact attempted.andThen (inductionHypothesis
            (Stage.stands_afterAttempt attempted.cutOff policy attempt) attempted.orderly)
      | resting attempt =>
          obtain ⟨passes, byContext⟩ := heeds.rest (policy.delayBefore attempt) state
          rw [Retry.carryOn_resting]
          cases isRested : around.rest (policy.delayBefore attempt) state with
          | mk ended rested =>
              rw [isRested] at passes byContext
              cases ended with
              | some fault =>
                  exact passes.heeded orderly fun _ => ⟨fault, byContext fault rfl, rfl⟩
              | none =>
                  have rests : Heeded (history state) (history rested) True :=
                    passes.heeded orderly fun _ => trivial
                  have looked := heeds.look rested
                  have looks := looked.heeded rests.orderly
                  exact rests.andThen (looks.andThen
                    (inductionHypothesis (Stage.stands_enter looked attempt) looks.orderly))

theorem Surroundings.Heeds.run
    (heeds : around.Heeds history)
    (policy : RetryPolicy)
    {state : σ}
    (orderly : Orderly (history state)) :
    let ran := Retry.run policy around state
    Heeded (history state) (history ran.2) ran.1.IsCut := by
  have looked := heeds.look state
  have looks := looked.heeded orderly
  exact looks.andThen
    (heeds.carryOn policy (2 * policy.attempts) (Stage.stands_enter looked 1) looks.orderly)

/-- A breaker takes no notice of work that was cut off. -/
theorem Gate.Unseen.report
    (unseen : gate.Unseen history)
    {before : List RunEvent}
    {ending : Ending α}
    {state : σ}
    (heeded : Heeded before (history state) ending.IsCut) :
    let reported := gate.report ending state
    Heeded before (history reported.2) reported.1.IsCut := by
  have sameHistory : history (gate.report ending state).2 = history state := by
    unfold Gate.report
    split
    · exact unseen.succeed state
    · rfl
    · exact unseen.fail state
  refine ⟨sameHistory ▸ heeded.grows, sameHistory ▸ heeded.orderly, fun cutShort => ?_⟩
  rw [sameHistory] at cutShort
  obtain ⟨fault, endsContext, rfl⟩ := heeded.cutOff cutShort
  have ignored : Verdict.of (.fault fault : Ending α) = .nothing := if_pos endsContext
  simp only [Gate.report, ignored]
  exact ⟨fault, endsContext, rfl⟩

theorem Gate.Unseen.run
    (unseen : gate.Unseen history)
    (heeds : around.Heeds history)
    (policy : RetryPolicy)
    {state : σ}
    (steady : Steady (history state)) :
    let ran := gate.run policy around state
    Heeded (history state) (history ran.2) ran.1.IsCut := by
  have sameHistory := unseen.ask state
  unfold Gate.run
  cases asked : gate.ask state with
  | mk refusal admitted =>
      rw [asked] at sameHistory
      dsimp only at sameHistory
      rw [← sameHistory] at steady ⊢
      cases refusal with
      | some fault =>
          exact .of_steady steady _
      | none =>
          exact unseen.report (heeds.run policy steady.orderly)

end Retries

namespace ModelAccess

variable {σ : Type} {history : σ → List RunEvent} {access : ModelAccess σ}

/-- A model that is asked under the context of a run.  Whoever sleeps or brings an answer starts
nothing more. -/
structure Heeds (access : ModelAccess σ) (history : σ → List RunEvent) : Prop where
  look : ∀ state,
    Looked (history state) (history (access.look state).2) (access.look state).1
  done : ∀ state,
    Looked (history state) (history (access.done state).2) (access.done state).1
  sleep : ∀ time, (access.sleep time).OnlyStarts history Passes []
  gate : access.gate.Unseen history
  client : ∀ conversation, (access.client conversation).OnlyStarts history Returns [.modelAsked]
  streamer : ∀ conversation,
    (access.streamer conversation).OnlyStarts history Returns [.modelAsked]
  next : ∀ time, (access.next time).OnlyStarts history Returns []

namespace Heeds

/-- Every attempt to ask heeds the end of the context if the question is work that does. -/
theorem surroundings
    {α : Type}
    (heeds : access.Heeds history)
    {question : Work σ (Except String α)}
    (only : question.OnlyStarts history Returns [.modelAsked]) :
    (access.surroundings (question.race access.done)).Heeds history where
  look := heeds.look
  rest time := (heeds.sleep time).await heeds.done
  attempt _ state goesOn := by
    have raced := only.race heeds.done (not_hasEnded_singleton rfl)
      (orderly_of_not_hasEnded goesOn)
    refine raced.imp ?_
    rintro ⟨fault, endsContext, isFault⟩
    simp only [ModelAccess.surroundings, isFault]
    exact isCut_fault_iff.mpr endsContext

theorem ask
    (heeds : access.Heeds history)
    (policy : RetryPolicy)
    (conversation : Conversation)
    {state : σ}
    (steady : Steady (history state)) :
    let asked := access.ask policy conversation state
    Heeded (history state) (history asked.2) asked.1.IsCut :=
  heeds.gate.run (heeds.surroundings (heeds.client conversation)) policy steady

theorem openStream
    (heeds : access.Heeds history)
    (policy : RetryPolicy)
    (conversation : Conversation)
    {state : σ}
    (steady : Steady (history state)) :
    let opened := access.openStream policy conversation state
    Heeded (history state) (history opened.2) opened.1.IsCut :=
  heeds.gate.run (heeds.surroundings (heeds.streamer conversation)) policy steady

theorem arrive
    (heeds : access.Heeds history)
    (time : Duration)
    {state : σ}
    (orderly : Orderly (history state)) :
    let arrived := access.arrive time state
    Heeded (history state) (history arrived.2)
      (∃ fault, fault.endsContext = true ∧ arrived.1 = some fault) := by
  have raced := (heeds.next time).race heeds.done not_hasEnded_nil orderly
  unfold ModelAccess.arrive Work.await
  match (access.next time).race access.done state, raced with
  | (.error fault, after), raced =>
      refine raced.imp ?_
      rintro ⟨_, endsContext, isFault⟩
      cases isFault
      exact ⟨fault, endsContext, rfl⟩
  | (.ok (), after), raced =>
      refine raced.imp ?_
      rintro ⟨_, -, isFault⟩
      cases isFault

/-- The end of the context is met between any two pieces of an answer. -/
theorem receive
    (heeds : access.Heeds history)
    (pieces : List Piece)
    (came : List String)
    {state : σ}
    (steady : Steady (history state)) :
    let received := access.receive came pieces state
    Heeded (history state) (history received.2.2) received.1.IsCut := by
  induction pieces generalizing came state with
  | nil =>
      have looked := heeds.done state
      unfold ModelAccess.receive
      cases isLooked : access.done state with
      | mk ended after =>
          rw [isLooked] at looked
          cases ended with
          | some fault =>
              exact (looked.heeded steady.orderly).imp fun _ => looked.isCut_of_fault
          | none =>
              exact (looked.heeded steady.orderly).imp fun isNone => absurd rfl isNone
  | cons piece rest inductionHypothesis =>
      have arrived := heeds.arrive piece.delay steady.orderly
      unfold ModelAccess.receive
      cases isArrived : access.arrive piece.delay state with
      | mk ended after =>
          rw [isArrived] at arrived
          cases ended with
          | some fault =>
              refine arrived.imp ?_
              rintro ⟨_, endsContext, isFault⟩
              cases isFault
              exact isCut_fault_iff.mpr endsContext
          | none =>
              have steadyAfter := arrived.steady nofun
              dsimp only
              split
              · exact arrived.andThen (.of_steady steadyAfter _)
              · exact arrived.andThen (inductionHypothesis _ steadyAfter)

theorem askInPieces
    (heeds : access.Heeds history)
    (policy : RetryPolicy)
    (conversation : Conversation)
    {state : σ}
    (steady : Steady (history state)) :
    let asked := access.askInPieces policy conversation state
    Heeded (history state) (history asked.2.2) asked.1.IsCut := by
  have opened := heeds.openStream policy conversation steady
  unfold ModelAccess.askInPieces
  cases isOpened : access.openStream policy conversation state with
  | mk ending after =>
      rw [isOpened] at opened
      match ending, opened with
      | .brokeDown, opened =>
          exact opened.imp fun isCut => absurd isCut not_isCut_brokeDown
      | .finished (.error fault), opened =>
          exact opened.imp fun isCut => isCut_fault_iff.mpr (isCut_fault_iff.mp isCut)
      | .finished (.ok pieces), opened =>
          exact opened.andThen (heeds.receive pieces [] (opened.steady (not_isCut_value _)))

end Heeds

end ModelAccess

/-- The end of the context stays what it is within a stage of a run. -/
theorem Fault.inStage_of_endsContext
    {fault : Fault}
    (endsContext : fault.endsContext = true)
    (stage : String → Fault) :
    fault.inStage stage = fault :=
  if_pos endsContext

section Stages

variable {σ : Type} {history : σ → List RunEvent} {access : ModelAccess σ}

theorem Planning.isCut_ending
    {reply : Ending String}
    (isCut : reply.IsCut) :
    (Planning.ending reply).IsCut := by
  obtain ⟨fault, endsContext, rfl⟩ := isCut
  refine ⟨fault, endsContext, ?_⟩
  simp only [Planning.ending, Ending.fault, Fault.inStage_of_endsContext endsContext]

/-- Planning with a model heeds the end of the context. -/
theorem ModelAccess.Heeds.plan
    (heeds : access.Heeds history)
    (policy : RetryPolicy)
    (tools objective : String)
    (results : List Call)
    {state : σ}
    (steady : Steady (history state)) :
    let planned := Planning.plan access policy tools objective results state
    Heeded (history state) (history planned.2) planned.1.IsCut :=
  (heeds.ask policy _ steady).imp Planning.isCut_ending

theorem Review.isCut_ofWritten
    {ending : Ending String}
    (isCut : ending.IsCut)
    (told : List String) :
    (Review.ofWritten ending told).ending.IsCut := by
  obtain ⟨fault, endsContext, rfl⟩ := isCut
  refine ⟨fault, endsContext, ?_⟩
  simp only [Review.ofWritten, Ending.fault, Fault.inStage_of_endsContext endsContext]

/-- A review with a model heeds the end of the context, also while the answer is written. -/
theorem ModelAccess.Heeds.review
    (heeds : access.Heeds history)
    (policy : RetryPolicy)
    (tools objective : String)
    (results : List Call)
    {state : σ}
    (steady : Steady (history state)) :
    let reviewed := Review.review access policy tools objective results state
    Heeded (history state) (history reviewed.2) reviewed.1.ending.IsCut := by
  have asked :=
    heeds.ask policy (Prompt.conversation (Prompt.reviewer tools) objective results) steady
  unfold Review.review
  dsimp only
  cases isAsked :
      access.ask policy (Prompt.conversation (Prompt.reviewer tools) objective results)
        state with
  | mk ending after =>
      rw [isAsked] at asked
      match ending, asked with
      | .brokeDown, asked =>
          exact asked.imp fun isCut => absurd isCut not_isCut_brokeDown
      | .finished (.error fault), asked =>
          refine asked.imp fun isCut => ?_
          have endsContext := isCut_fault_iff.mp isCut
          simp only [Fault.inStage_of_endsContext endsContext]
          exact isCut_fault_iff.mpr endsContext
      | .finished (.ok reply), asked =>
          have steadyAfter : Steady (history after) := asked.steady (not_isCut_value _)
          dsimp only
          split
          · exact asked.andThen (.of_steady steadyAfter _)
          · split
            · exact asked.andThen (.of_steady steadyAfter _)
            · exact asked.andThen
                ((heeds.askInPieces policy _ steadyAfter).imp fun isCut =>
                  Review.isCut_ofWritten isCut _)

end Stages

end Runbook
