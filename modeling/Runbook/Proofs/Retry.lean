import Runbook.Proofs.History
import Runbook.Retry

namespace Runbook

/-!
# What a retried operation does

What a retried operation does to its surroundings is written down as it happens.  Its
attempts are numbered one after the other, and there are no more of them than its policy
allows, whatever the surroundings answer.  So it never runs out of fuel.
-/

/-- What a retried operation does, and what came of it. -/
inductive Trial (α : Type) where
  | looked (ended : Option Fault)
  | rested (time : Duration) (ended : Option Fault)
  | attempted (number : Nat) (ending : Ending α)
  deriving DecidableEq

namespace Trial

variable {α : Type}

/-- The number of an attempt. -/
def number? : Trial α → Option Nat
  | attempted number _ => some number
  | _ => none

/-- The numbers of the attempts among trials. -/
def numbers (trials : List (Trial α)) : List Nat := trials.filterMap number?

end Trial

variable {σ α δ : Type}

/-- The surroundings, where everything that is done to them is written down. -/
def Surroundings.noted (around : Surroundings σ α) (note : Trial α → δ) :
    Surroundings (σ × List δ) α where
  look := History.noting around.look fun ended => note (.looked ended)
  rest time := History.noting (around.rest time) fun ended => note (.rested time ended)
  attempt number :=
    History.noting (around.attempt number) fun ending => note (.attempted number ending)

namespace Retry

/-- The attempts that a stage still leads to: from its next one on, up to the last one that
the policy allows. -/
def Leads (policy : RetryPolicy) (trials : List (Trial α)) : Stage α → Prop
  | .ended _ => trials = []
  | .attempting first | .resting first =>
      ∃ count, Trial.numbers trials = List.range' first count ∧
        first + count ≤ policy.attempts + 1

/-- A stage whose next attempt the policy allows. -/
def Allowed (policy : RetryPolicy) : Stage α → Prop
  | .ended _ => True
  | .attempting next | .resting next => next ≤ policy.attempts

theorem allowed_enter
    {policy : RetryPolicy}
    {attempt : Nat}
    (isAllowed : attempt ≤ policy.attempts)
    (ended : Option Fault) :
    Allowed policy (.enter attempt ended : Stage α) := by
  cases ended with
  | none =>
      exact isAllowed
  | some fault =>
      exact True.intro

/-- After an attempt the operation is over, or rests before the next one. -/
theorem afterAttempt_eq
    (policy : RetryPolicy)
    (attempt : Nat)
    (ending : Ending α) :
    (∃ last, Stage.afterAttempt policy attempt ending = .ended last) ∨
      attempt < policy.attempts ∧
        Stage.afterAttempt policy attempt ending = .resting (attempt + 1) := by
  unfold Stage.afterAttempt
  split
  case h_1 =>
    exact Or.inl ⟨_, rfl⟩
  case h_2 =>
    exact Or.inl ⟨_, rfl⟩
  case h_3 fault =>
    split
    · exact Or.inl ⟨_, rfl⟩
    · split
      · exact Or.inr ⟨by assumption, rfl⟩
      · split <;> exact Or.inl ⟨_, rfl⟩

theorem allowed_afterAttempt
    (policy : RetryPolicy)
    (attempt : Nat)
    (ending : Ending α) :
    Allowed policy (.afterAttempt policy attempt ending) := by
  rcases afterAttempt_eq policy attempt ending with ⟨last, isOver⟩ | ⟨isBelow, isResting⟩
  · rw [isOver]
    exact True.intro
  · rw [isResting]
    exact isBelow

theorem leads_attempted
    {policy : RetryPolicy}
    {attempt : Nat}
    {ending : Ending α}
    {rest : List (Trial α)}
    (isAllowed : attempt ≤ policy.attempts)
    (leads : Leads policy rest (.afterAttempt policy attempt ending)) :
    Leads policy (.attempted attempt ending :: rest) (.attempting attempt) := by
  rcases afterAttempt_eq policy attempt ending with ⟨last, isOver⟩ | ⟨isBelow, isResting⟩
  · rw [isOver] at leads
    cases leads
    exact ⟨1, rfl, Nat.succ_le_succ isAllowed⟩
  · rw [isResting] at leads
    obtain ⟨count, areNumbered, isWithin⟩ := leads
    refine ⟨count + 1, ?_, by omega⟩
    rw [List.range'_succ, ← areNumbered]
    rfl

theorem leads_enter
    {policy : RetryPolicy}
    {attempt : Nat}
    {ended : Option Fault}
    {trials : List (Trial α)}
    (isAllowed : attempt ≤ policy.attempts)
    (leads : Leads policy trials (.enter attempt ended)) :
    ∃ count, Trial.numbers trials = List.range' attempt count ∧
      attempt + count ≤ policy.attempts + 1 := by
  cases ended with
  | some fault =>
      cases leads
      exact ⟨0, rfl, Nat.le_succ_of_le isAllowed⟩
  | none =>
      exact leads

theorem carryOn_attempting
    (policy : RetryPolicy)
    (around : Surroundings σ α)
    (fuel attempt : Nat)
    (state : σ) :
    carryOn policy around (fuel + 1) (.attempting attempt) state =
      carryOn policy around fuel
        (.afterAttempt policy attempt (around.attempt attempt state).1)
        (around.attempt attempt state).2 := by
  rfl

theorem carryOn_resting
    (policy : RetryPolicy)
    (around : Surroundings σ α)
    (fuel attempt : Nat)
    (state : σ) :
    carryOn policy around (fuel + 1) (.resting attempt) state =
      match around.rest (policy.delayBefore attempt) state with
      | (some fault, state) => (.fault fault, state)
      | (none, state) =>
          carryOn policy around fuel (.enter attempt (around.look state).1)
            (around.look state).2 := by
  rfl

/-- The steps that an operation may take from a stage on. -/
def needed (policy : RetryPolicy) : Stage α → Nat
  | .ended _ => 0
  | .attempting next => 2 * (policy.attempts - next) + 1
  | .resting next => 2 * (policy.attempts - next) + 2

theorem needed_afterAttempt_lt
    (policy : RetryPolicy)
    (attempt : Nat)
    (ending : Ending α) :
    needed policy (.afterAttempt policy attempt ending) <
      needed policy (.attempting attempt : Stage α) := by
  rcases afterAttempt_eq policy attempt ending with ⟨last, isOver⟩ | ⟨isBelow, isResting⟩
  · rw [isOver]
    exact Nat.succ_pos _
  · rw [isResting, needed, needed]
    omega

theorem needed_enter_lt
    (policy : RetryPolicy)
    (attempt : Nat)
    (ended : Option Fault) :
    needed policy (.enter attempt ended : Stage α) <
      needed policy (.resting attempt : Stage α) := by
  cases ended with
  | none =>
      exact Nat.lt_succ_self _
  | some fault =>
      exact Nat.succ_pos _

/-- Fuel for all the steps of an operation is enough: more of it changes nothing. -/
theorem carryOn_of_needed_le
    (policy : RetryPolicy)
    (around : Surroundings σ α)
    {fuel more : Nat}
    {stage : Stage α}
    (isEnough : needed policy stage ≤ fuel)
    (isMore : fuel ≤ more)
    (state : σ) :
    carryOn policy around more stage state = carryOn policy around fuel stage state := by
  induction fuel generalizing more stage state with
  | zero =>
      cases stage with
      | ended ending =>
          simp [carryOn]
      | _ =>
          cases isEnough
  | succ fuel inductionHypothesis =>
      obtain ⟨more, rfl⟩ : ∃ less, more = less + 1 :=
        Nat.exists_eq_add_one_of_ne_zero (Nat.ne_zero_of_lt isMore)
      have isMoreToo : fuel ≤ more := Nat.le_of_succ_le_succ isMore
      cases stage with
      | ended ending =>
          simp [carryOn]
      | attempting attempt =>
          rw [carryOn_attempting, carryOn_attempting]
          have isLess := needed_afterAttempt_lt policy attempt (around.attempt attempt state).1
          exact inductionHypothesis (Nat.le_of_lt_succ (Nat.lt_of_lt_of_le isLess isEnough))
            isMoreToo _
      | resting attempt =>
          rw [carryOn_resting, carryOn_resting]
          split
          · rfl
          · rename_i rested _
            have isLess := needed_enter_lt (α := α) policy attempt (around.look rested).1
            exact inductionHypothesis (Nat.le_of_lt_succ (Nat.lt_of_lt_of_le isLess isEnough))
              isMoreToo _

/-- So an operation never stops before it is over. -/
theorem run_eq_carryOn
    (policy : RetryPolicy)
    (around : Surroundings σ α)
    {fuel : Nat}
    (isEnough : 2 * policy.attempts ≤ fuel)
    (state : σ) :
    run policy around state =
      carryOn policy around fuel (.enter 1 (around.look state).1) (around.look state).2 := by
  have firstAllowed : 1 ≤ policy.attempts := Nat.le_max_right ..
  have isLess := needed_enter_lt (α := α) policy 1 (around.look state).1
  have isAll : needed policy (.resting 1 : Stage α) = 2 * policy.attempts := by
    rw [needed]
    omega
  rw [isAll] at isLess
  exact (carryOn_of_needed_le policy around (Nat.le_of_lt isLess) isEnough _).symm

/-- Writing down what is done changes nothing, and what is written down are the attempts
that the stage leads to, in their order. -/
theorem carryOn_noted
    (policy : RetryPolicy)
    (around : Surroundings σ α)
    (note : Trial α → δ)
    (fuel : Nat)
    {stage : Stage α}
    (isAllowed : Allowed policy stage)
    (state : σ)
    (log : List δ) :
    ∃ trials,
      carryOn policy (around.noted note) fuel stage (state, log) =
          ((carryOn policy around fuel stage state).1,
            (carryOn policy around fuel stage state).2, log ++ trials.map note) ∧
        Leads policy trials stage := by
  -- The induction is on the fuel; the stage says which attempt is next, if there is one.
  induction fuel generalizing stage state log with
  | zero =>
      cases stage with
      | ended ending =>
          exact ⟨[], by simp [carryOn], rfl⟩
      | attempting attempt =>
          exact ⟨[], by simp [carryOn], 0, rfl, Nat.le_succ_of_le isAllowed⟩
      | resting attempt =>
          exact ⟨[], by simp [carryOn], 0, rfl, Nat.le_succ_of_le isAllowed⟩
  | succ fuel inductionHypothesis =>
      cases stage with
      | ended ending =>
          exact ⟨[], by simp [carryOn], rfl⟩
      | attempting attempt =>
          have nextAllowed :=
            allowed_afterAttempt policy attempt (around.attempt attempt state).1
          obtain ⟨trials, isRun, leads⟩ :=
            inductionHypothesis nextAllowed (around.attempt attempt state).2
              (log ++ [note (.attempted attempt (around.attempt attempt state).1)])
          refine ⟨.attempted attempt (around.attempt attempt state).1 :: trials, ?_,
            leads_attempted isAllowed leads⟩
          rw [carryOn_attempting, carryOn_attempting, List.map_cons, List.append_cons]
          exact isRun
      | resting attempt =>
          rw [carryOn_resting, carryOn_resting]
          simp only [Surroundings.noted, History.noting]
          cases isRested : around.rest (policy.delayBefore attempt) state with
          | mk ended rested =>
              cases ended with
              | some fault =>
                  exact ⟨[.rested (policy.delayBefore attempt) (some fault)], rfl, 0, rfl,
                    Nat.le_succ_of_le isAllowed⟩
              | none =>
                  have nextAllowed := allowed_enter (α := α) isAllowed (around.look rested).1
                  obtain ⟨trials, isRun, leads⟩ :=
                    inductionHypothesis nextAllowed (around.look rested).2
                      (log ++ [note (.rested (policy.delayBefore attempt) none)] ++
                        [note (.looked (around.look rested).1)])
                  have leadsOn := leads_enter isAllowed leads
                  refine ⟨.rested (policy.delayBefore attempt) none ::
                    .looked (around.look rested).1 :: trials, ?_, leadsOn⟩
                  simp only [List.append_assoc, List.singleton_append] at isRun
                  simp only [List.append_assoc, List.singleton_append, List.map_cons]
                  exact isRun

/-- So it is with a whole operation: it is attempted at most as often as its policy allows,
and at least once if it may be. -/
theorem run_noted
    (policy : RetryPolicy)
    (around : Surroundings σ α)
    (note : Trial α → δ)
    (state : σ)
    (log : List δ) :
    ∃ trials count,
      run policy (around.noted note) (state, log) =
          ((run policy around state).1, (run policy around state).2,
            log ++ trials.map note) ∧
        Trial.numbers trials = List.range' 1 count ∧ count ≤ max policy.maxAttempts 1 := by
  have firstAllowed : 1 ≤ policy.attempts := Nat.le_max_right ..
  have nextAllowed := allowed_enter (α := α) firstAllowed (around.look state).1
  obtain ⟨trials, isRun, leads⟩ :=
    carryOn_noted policy around note (2 * policy.attempts) nextAllowed (around.look state).2
      (log ++ [note (.looked (around.look state).1)])
  obtain ⟨count, areNumbered, isWithin⟩ := leads_enter firstAllowed leads
  refine ⟨.looked (around.look state).1 :: trials, count, ?_, areNumbered, ?_⟩
  · rw [List.map_cons, List.append_cons]
    exact isRun
  · rw [RetryPolicy.attempts] at isWithin
    omega

end Retry

end Runbook
