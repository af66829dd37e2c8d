import Runbook.Proofs.Retry
import Runbook.Rehearsal.Operation

namespace Runbook

/-!
# What a retried operation comes to

A retried operation meets a context, a sleeper and itself.  The first attempt that calls for
no other one decides how it ends, or its last attempt does, or the end of its context before
an attempt.  Up to there every attempt is made once and in its turn, with the wait before it
that its policy names, and never after the context has ended.
-/

/-- What a retried operation meets: a context, a sleeper and the operation itself.  Each of
them may change the state `σ` of everything else. -/
structure Setting (σ α : Type) where
  /-- Why the context has ended, if it has. -/
  ended : σ → Option Fault
  /-- Sleep for a time, unless the context ends first. -/
  sleep : Duration → σ → Option Fault × σ
  /-- Make the attempt of a number. -/
  operate : Nat → σ → Ending α × σ
  /-- A sleep is broken off only when the context has ended, and for that reason. -/
  brokenOff : ∀ {time : Duration} {state : σ} {fault : Fault},
    (sleep time state).1 = some fault → ended (sleep time state).2 = some fault

/-- One thing that a retried operation does: it asks the sleeper for a sleep, or makes an
attempt while the context stands in some way. -/
inductive Note (α : Type) where
  | asked (time : Duration)
  | made (attempt : Nat) (ended : Option Fault) (ending : Ending α)
  deriving DecidableEq

namespace Note

variable {α : Type}

/-- The sleep that was asked for. -/
def sleep? : Note α → Option Duration
  | asked time => some time
  | made _ _ _ => none

/-- The number and the ending of the attempt that was made. -/
def attempt? : Note α → Option (Nat × Ending α)
  | asked _ => none
  | made attempt _ ending => some (attempt, ending)

/-- The sleeps that the sleeper was asked for, in that order. -/
def sleeps (notes : List (Note α)) : List Duration := notes.filterMap sleep?

/-- The attempts that were made and how they ended, in that order. -/
def attempts (notes : List (Note α)) : List (Nat × Ending α) := notes.filterMap attempt?

@[simp] theorem sleeps_append
    (first second : List (Note α)) :
    sleeps (first ++ second) = sleeps first ++ sleeps second :=
  List.filterMap_append

@[simp] theorem attempts_append
    (first second : List (Note α)) :
    attempts (first ++ second) = attempts first ++ attempts second :=
  List.filterMap_append

end Note

namespace Ending

variable {α : Type}

/-- Whether an attempt that ends like this calls for another one. -/
def isRetryable : Ending α → Bool
  | .finished (.error fault) => fault.isRetryable
  | _ => false

theorem isRetryable_iff
    {ending : Ending α} :
    ending.isRetryable = true ↔
      ∃ fault, ending = .fault fault ∧ fault.isRetryable = true := by
  constructor
  · intro retryable
    match ending, retryable with
    | .finished (.error fault), retryable =>
        exact ⟨fault, rfl, retryable⟩
  · rintro ⟨fault, rfl, retryable⟩
    exact retryable

end Ending

/-- The end of a context is never retried. -/
theorem Fault.endsContext_eq_false_of_isRetryable
    {fault : Fault}
    (retryable : fault.isRetryable = true) :
    fault.endsContext = false := by
  cases fault with
  | cancelled =>
      cases retryable
  | deadlineExceeded =>
      cases retryable
  | _ =>
      rfl

namespace Stage

variable {α : Type} {policy : RetryPolicy} {attempt : Nat} {ending : Ending α}

/-- An attempt that calls for no other one ends the operation as it ended. -/
theorem afterAttempt_of_not_isRetryable
    (decisive : ending.isRetryable = false) :
    afterAttempt policy attempt ending = .ended ending := by
  match ending, decisive with
  | .brokeDown, _ =>
      rfl
  | .finished (.ok value), _ =>
      rfl
  | .finished (.error fault), decisive =>
      have notRetryable : fault.isRetryable = false :=
        decisive
      simp [afterAttempt, notRetryable, Ending.fault]

/-- An attempt that calls for another one is followed by a rest, if it was not the last. -/
theorem afterAttempt_of_lt
    (retryable : ending.isRetryable = true)
    (isBelow : attempt < policy.attempts) :
    afterAttempt policy attempt ending = .resting (attempt + 1) := by
  obtain ⟨fault, rfl, isRetryable⟩ := Ending.isRetryable_iff.mp retryable
  simp [afterAttempt, Ending.fault, isRetryable, isBelow,
    Fault.endsContext_eq_false_of_isRetryable isRetryable]

/-- The fault of the last attempt is wrapped, unless it was the only one. -/
theorem afterAttempt_last
    {fault : Fault}
    (retryable : fault.isRetryable = true) :
    (afterAttempt policy policy.attempts (.fault fault) : Stage α) =
      .ended (.fault (if policy.attempts = 1 then fault
        else .retriesExhausted policy.attempts fault)) := by
  simp only [afterAttempt, Ending.fault, retryable,
    Fault.endsContext_eq_false_of_isRetryable retryable]
  by_cases isOnly : policy.attempts = 1
  · simp [isOnly]
  · simp [isOnly]

end Stage

namespace Setting

variable {σ α : Type} (setting : Setting σ α) (policy : RetryPolicy)

/-- What the operation meets, as retries see it.  A context that has ended already leaves
the sleeper alone. -/
def surroundings : Surroundings σ α where
  look state := (setting.ended state, state)
  rest time state :=
    match setting.ended state with
    | some fault => (some fault, state)
    | none => setting.sleep time state
  attempt := setting.operate

/-- The setting, where everything that is done in it is written down. -/
def noted : Setting (σ × List (Note α)) α where
  ended state := setting.ended state.1
  sleep time := History.noting (setting.sleep time) fun _ => .asked time
  operate number state :=
    ((setting.operate number state.1).1, (setting.operate number state.1).2,
      state.2 ++ [.made number (setting.ended state.1) (setting.operate number state.1).1])
  brokenOff isBrokenOff := setting.brokenOff isBrokenOff

/-- The state in which the next attempt is due after a number of attempts, if each of them
calls for another one. -/
def due (state : σ) : Nat → σ
  | 0 => state
  | made + 1 =>
      (setting.surroundings.rest (policy.delayBefore (made + 2))
        (setting.operate (made + 1) (due state made)).2).2

/-- How the next attempt ends that is made after a number of attempts. -/
def outcome (state : σ) (made : Nat) : Ending α :=
  (setting.operate (made + 1) (setting.due policy state made)).1

/-- Each attempt up to a number was made before the context had ended, and calls for
another one. -/
def GoesOn (state : σ) (made : Nat) : Prop :=
  ∀ earlier < made,
    setting.ended (setting.due policy state earlier) = none ∧
      (setting.outcome policy state earlier).isRetryable = true

variable {setting policy} {state : σ}

@[simp] theorem ended_noted
    (state : σ × List (Note α)) :
    setting.noted.ended state = setting.ended state.1 := by
  rfl

@[simp] theorem operate_noted
    (number : Nat)
    (state : σ × List (Note α)) :
    setting.noted.operate number state =
      ((setting.operate number state.1).1, (setting.operate number state.1).2,
        state.2 ++
          [.made number (setting.ended state.1) (setting.operate number state.1).1]) := by
  rfl

/-- A rest is written down if the sleeper is asked for it. -/
@[simp] theorem rest_noted
    (time : Duration)
    (state : σ × List (Note α)) :
    setting.noted.surroundings.rest time state =
      ((setting.surroundings.rest time state.1).1,
        (setting.surroundings.rest time state.1).2,
          state.2 ++ if setting.ended state.1 = none then [.asked time] else []) := by
  cases ended : setting.ended state.1 with
  | some fault =>
      simp [surroundings, ended]
  | none =>
      simp only [surroundings, ended_noted, ended]
      rfl

/-- Whatever comes of a rest, the context stands as it does when the rest is over. -/
theorem rest_fst
    (setting : Setting σ α)
    (time : Duration)
    (state : σ) :
    (setting.surroundings.rest time state).1 = none ∨
      (setting.surroundings.rest time state).1 =
        setting.ended (setting.surroundings.rest time state).2 := by
  cases ended : setting.ended state with
  | some fault =>
      right
      simp only [surroundings, ended]
  | none =>
      simp only [surroundings, ended]
      cases slept : (setting.sleep time state).1 with
      | none =>
          exact Or.inl rfl
      | some fault =>
          exact Or.inr (setting.brokenOff slept).symm

/-- After an attempt that calls for another one, the operation comes to where the next one
is due. -/
theorem carryOn_due
    {made : Nat}
    (notLast : made + 1 < policy.attempts)
    (retryable : (setting.outcome policy state made).isRetryable = true)
    (fuel : Nat) :
    Retry.carryOn policy setting.surroundings (fuel + 2) (.attempting (made + 1))
        (setting.due policy state made) =
      Retry.carryOn policy setting.surroundings fuel
        (.enter (made + 2) (setting.ended (setting.due policy state (made + 1))))
        (setting.due policy state (made + 1)) := by
  rw [Retry.carryOn_attempting]
  change Retry.carryOn policy _ _ (Stage.afterAttempt policy (made + 1)
    (setting.outcome policy state made)) (setting.operate _ _).2 = _
  rw [Stage.afterAttempt_of_lt retryable notLast, Retry.carryOn_resting]
  cases rested : setting.surroundings.rest (policy.delayBefore (made + 1 + 1))
      (setting.operate (made + 1) (setting.due policy state made)).2 with
  | mk ended later =>
      have isDue : setting.due policy state (made + 1) = later := by
        simp only [due, rested]
      have stands := rest_fst setting (policy.delayBefore (made + 1 + 1))
        (setting.operate (made + 1) (setting.due policy state made)).2
      rw [rested] at stands
      rw [isDue]
      cases ended with
      | none =>
          rfl
      | some fault =>
          rcases stands with goesOn | hasEnded
          · cases goesOn
          · simp only at hasEnded
            rw [← hasEnded]
            cases fuel <;> rfl

/-- As long as attempts call for others, the operation comes to where the next one is
due. -/
theorem run_of_goesOn
    {made : Nat}
    (isBelow : made < policy.attempts)
    (goesOn : setting.GoesOn policy state made) :
    Retry.run policy setting.surroundings state =
      Retry.carryOn policy setting.surroundings (2 * (policy.attempts - made))
        (.enter (made + 1) (setting.ended (setting.due policy state made)))
        (setting.due policy state made) := by
  induction made with
  | zero =>
      rfl
  | succ made inductionHypothesis =>
      obtain ⟨isLive, retryable⟩ := goesOn made (Nat.lt_succ_self made)
      rw [inductionHypothesis (by omega) fun earlier less =>
        goesOn earlier (Nat.lt_succ_of_lt less), isLive]
      obtain ⟨fuel, isFuel⟩ : ∃ fuel, 2 * (policy.attempts - made) = fuel + 2 :=
        ⟨2 * (policy.attempts - made) - 2, by omega⟩
      have isLess : 2 * (policy.attempts - (made + 1)) = fuel := by
        omega
      rw [isFuel, isLess]
      exact carryOn_due isBelow retryable fuel

/-- An operation whose context has ended before an attempt ends with it. -/
theorem run_of_ended
    {made : Nat}
    {fault : Fault}
    (isBelow : made < policy.attempts)
    (goesOn : setting.GoesOn policy state made)
    (hasEnded : setting.ended (setting.due policy state made) = some fault) :
    Retry.run policy setting.surroundings state =
      (.fault fault, setting.due policy state made) := by
  rw [run_of_goesOn isBelow goesOn, hasEnded]
  obtain ⟨fuel, isFuel⟩ : ∃ fuel, 2 * (policy.attempts - made) = fuel + 1 :=
    ⟨2 * (policy.attempts - made) - 1, by omega⟩
  rw [isFuel]
  rfl

/-- An attempt that is due is made, and the operation ends as what follows it does if that
is the end. -/
theorem run_of_afterAttempt
    {made : Nat}
    {ending : Ending α}
    (isBelow : made < policy.attempts)
    (goesOn : setting.GoesOn policy state made)
    (isLive : setting.ended (setting.due policy state made) = none)
    (isOver :
      Stage.afterAttempt policy (made + 1) (setting.outcome policy state made) =
        .ended ending) :
    Retry.run policy setting.surroundings state =
      (ending, (setting.operate (made + 1) (setting.due policy state made)).2) := by
  rw [run_of_goesOn isBelow goesOn, isLive]
  obtain ⟨fuel, isFuel⟩ : ∃ fuel, 2 * (policy.attempts - made) = fuel + 2 :=
    ⟨2 * (policy.attempts - made) - 2, by omega⟩
  rw [isFuel, Stage.enter, Retry.carryOn_attempting]
  change Retry.carryOn policy _ _ (Stage.afterAttempt policy (made + 1)
    (setting.outcome policy state made)) _ = _
  rw [isOver]
  rfl

/-- Whether an operation that has come to an attempt goes no further than that: its context
has ended, or the attempt calls for no other or is the last. -/
def Stops (setting : Setting σ α) (policy : RetryPolicy) (state : σ) (made : Nat) : Prop :=
  (∃ fault, setting.ended (setting.due policy state made) = some fault) ∨
    setting.ended (setting.due policy state made) = none ∧
      ((setting.outcome policy state made).isRetryable = false ∨
        made + 1 = policy.attempts)

/-- An operation stops at one of its attempts. -/
theorem exists_stop
    (setting : Setting σ α)
    (policy : RetryPolicy)
    (state : σ) :
    ∃ made < policy.attempts,
      setting.GoesOn policy state made ∧ setting.Stops policy state made := by
  have stopsOrGoesOn :
      ∀ made < policy.attempts,
        (∃ earlier < policy.attempts,
          setting.GoesOn policy state earlier ∧ setting.Stops policy state earlier) ∨
        setting.GoesOn policy state made := by
    intro made isBelow
    induction made with
    | zero =>
        exact Or.inr fun earlier less => absurd less (Nat.not_lt_zero earlier)
    | succ made inductionHypothesis =>
        rcases inductionHypothesis (Nat.lt_of_succ_lt isBelow) with stops | goesOn
        · exact Or.inl stops
        · cases ended : setting.ended (setting.due policy state made) with
          | some fault =>
              exact Or.inl ⟨made, Nat.lt_of_succ_lt isBelow, goesOn, Or.inl ⟨fault, ended⟩⟩
          | none =>
              cases retryable : (setting.outcome policy state made).isRetryable with
              | false =>
                  exact Or.inl ⟨made, Nat.lt_of_succ_lt isBelow, goesOn,
                    Or.inr ⟨ended, Or.inl retryable⟩⟩
              | true =>
                  refine Or.inr fun earlier less => ?_
                  rcases Nat.lt_succ_iff_lt_or_eq.mp less with isEarlier | rfl
                  · exact goesOn earlier isEarlier
                  · exact ⟨ended, retryable⟩
  have positive : 0 < policy.attempts := Nat.le_max_right ..
  have isBelow : policy.attempts - 1 < policy.attempts := by
    omega
  rcases stopsOrGoesOn (policy.attempts - 1) isBelow with stops | goesOn
  · exact stops
  · refine ⟨policy.attempts - 1, isBelow, goesOn, ?_⟩
    cases ended : setting.ended (setting.due policy state (policy.attempts - 1)) with
    | some fault =>
        exact Or.inl ⟨fault, ended⟩
    | none =>
        exact Or.inr ⟨ended, Or.inr (Nat.sub_add_cancel positive)⟩

/-- What is written down until an attempt is due. -/
def chronicle (setting : Setting σ α) (policy : RetryPolicy) (state : σ) :
    Nat → List (Note α)
  | 0 => []
  | made + 1 =>
      chronicle setting policy state made ++
        .made (made + 1) (setting.ended (setting.due policy state made))
            (setting.outcome policy state made) ::
          if setting.ended (setting.operate (made + 1) (setting.due policy state made)).2 =
            none
          then [.asked (policy.delayBefore (made + 2))]
          else []

/-- Writing down what is done changes nothing. -/
@[simp] theorem due_noted
    (made : Nat) :
    setting.noted.due policy (state, []) made =
      (setting.due policy state made, setting.chronicle policy state made) := by
  induction made with
  | zero =>
      rfl
  | succ made inductionHypothesis =>
      simp [due, inductionHypothesis, chronicle, outcome]

@[simp] theorem outcome_noted
    (made : Nat) :
    setting.noted.outcome policy (state, []) made = setting.outcome policy state made := by
  simp [outcome]

theorem goesOn_noted
    {made : Nat} :
    setting.noted.GoesOn policy (state, []) made ↔ setting.GoesOn policy state made := by
  simp [GoesOn]

/-- Where the context goes on after a rest it went on before it. -/
theorem ended_operate
    {made : Nat}
    (isLive : setting.ended (setting.due policy state (made + 1)) = none) :
    setting.ended (setting.operate (made + 1) (setting.due policy state made)).2 = none := by
  cases ended :
      setting.ended (setting.operate (made + 1) (setting.due policy state made)).2 with
  | none =>
      rfl
  | some fault =>
      simp only [due, surroundings, ended] at isLive
      cases isLive

/-- Every attempt before one that is due was made once and in its turn. -/
theorem attempts_chronicle
    (made : Nat) :
    Note.attempts (setting.chronicle policy state made) =
      (List.range made).map fun earlier =>
        (earlier + 1, setting.outcome policy state earlier) := by
  induction made with
  | zero =>
      rfl
  | succ made inductionHypothesis =>
      rw [chronicle, Note.attempts_append, inductionHypothesis, List.range_succ,
        List.map_append]
      congr 1
      split <;> rfl

/-- And there was a sleep before each but the first, as long as the context goes on. -/
theorem sleeps_chronicle
    {made : Nat}
    (goesOn : setting.GoesOn policy state made)
    (isLive : setting.ended (setting.due policy state made) = none) :
    Note.sleeps (setting.chronicle policy state made) =
      (List.range' 2 made).map policy.delayBefore := by
  induction made with
  | zero =>
      rfl
  | succ made inductionHypothesis =>
      have sleptBefore :=
        inductionHypothesis (fun earlier less => goesOn earlier (Nat.lt_succ_of_lt less))
          (goesOn made (Nat.lt_succ_self made)).1
      rw [chronicle, Note.sleeps_append, sleptBefore, if_pos (ended_operate isLive),
        List.range'_concat, List.map_append]
      simp only [Note.sleeps, List.filterMap_cons, Note.sleep?, List.filterMap_nil,
        Nat.one_mul, Nat.add_comm, List.map_cons, List.map_nil]

/-- An attempt that was made before one that is due was made while the context went on. -/
theorem live_chronicle
    {made attempt : Nat}
    {ended : Option Fault}
    {ending : Ending α}
    (goesOn : setting.GoesOn policy state made)
    (member : .made attempt ended ending ∈ setting.chronicle policy state made) :
    ended = none := by
  induction made with
  | zero =>
      cases member
  | succ made inductionHypothesis =>
      rw [chronicle, List.mem_append, List.mem_cons] at member
      rcases member with isEarlier | isLast | isSleep
      · exact inductionHypothesis (fun earlier less => goesOn earlier (Nat.lt_succ_of_lt less))
          isEarlier
      · cases isLast
        exact (goesOn made (Nat.lt_succ_self made)).1
      · split at isSleep
        · simp at isSleep
        · cases isSleep

/-- What is written down of an operation whose context ends before an attempt. -/
theorem run_noted_of_ended
    {made : Nat}
    {fault : Fault}
    (isBelow : made < policy.attempts)
    (goesOn : setting.GoesOn policy state made)
    (hasEnded : setting.ended (setting.due policy state made) = some fault) :
    Retry.run policy setting.noted.surroundings (state, []) =
      (.fault fault, setting.due policy state made, setting.chronicle policy state made) := by
  have hasEndedToo :
      setting.noted.ended (setting.noted.due policy (state, []) made) = some fault := by
    simpa using hasEnded
  rw [run_of_ended isBelow (goesOn_noted.mpr goesOn) hasEndedToo, due_noted]

/-- What is written down of an operation that an attempt brings to its end. -/
theorem run_noted_of_afterAttempt
    {made : Nat}
    {ending : Ending α}
    (isBelow : made < policy.attempts)
    (goesOn : setting.GoesOn policy state made)
    (isLive : setting.ended (setting.due policy state made) = none)
    (isOver :
      Stage.afterAttempt policy (made + 1) (setting.outcome policy state made) =
        .ended ending) :
    Retry.run policy setting.noted.surroundings (state, []) =
      (ending, (setting.operate (made + 1) (setting.due policy state made)).2,
        setting.chronicle policy state made ++
          [.made (made + 1) none (setting.outcome policy state made)]) := by
  have isLiveToo :
      setting.noted.ended (setting.noted.due policy (state, []) made) = none := by
    simpa using isLive
  have isOverToo :
      Stage.afterAttempt policy (made + 1)
        (setting.noted.outcome policy (state, []) made) = .ended ending := by
    rw [outcome_noted]
    exact isOver
  rw [run_of_afterAttempt isBelow (goesOn_noted.mpr goesOn) isLiveToo isOverToo, due_noted,
    operate_noted, isLive]
  rfl

/-- The first attempts of a setting, with their numbers and how they end. -/
def firstAttempts (setting : Setting σ α) (policy : RetryPolicy) (state : σ) (count : Nat) :
    List (Nat × Ending α) :=
  (List.range count).map fun made => (made + 1, setting.outcome policy state made)

/-- The waits that a policy names before the attempts after the first, up to a number. -/
def waits (policy : RetryPolicy) (count : Nat) : List Duration :=
  (List.range' 2 (count - 1)).map policy.delayBefore

/-- Of the attempt that brings an operation to its end and of all before it everything is
written down. -/
theorem attempts_concat
    (made : Nat) :
    Note.attempts (setting.chronicle policy state made ++
        [.made (made + 1) none (setting.outcome policy state made)]) =
      setting.firstAttempts policy state (made + 1) := by
  rw [Note.attempts_append, attempts_chronicle, firstAttempts, List.range_succ,
    List.map_append]
  rfl

theorem sleeps_concat
    {made : Nat}
    (goesOn : setting.GoesOn policy state made)
    (isLive : setting.ended (setting.due policy state made) = none) :
    Note.sleeps (setting.chronicle policy state made ++
        [.made (made + 1) none (setting.outcome policy state made)]) =
      waits policy (made + 1) := by
  rw [Note.sleeps_append, sleeps_chronicle goesOn isLive]
  exact List.append_nil _

/-- What comes of a retried operation in a setting, and what it does. -/
structure Accounts (setting : Setting σ α) (policy : RetryPolicy) (state : σ)
    (ending : Ending α) (notes : List (Note α)) : Prop where
  /-- The first attempt that calls for no other one decides, if the context goes on until it
  is made. -/
  decided : ∀ made < max policy.maxAttempts 1,
    setting.GoesOn policy state made →
      setting.ended (setting.due policy state made) = none →
        (setting.outcome policy state made).isRetryable = false →
          ending = setting.outcome policy state made ∧
            Note.attempts notes = setting.firstAttempts policy state (made + 1) ∧
              Note.sleeps notes = waits policy (made + 1)
  /-- If all attempts call for another one, the fault of the last is wrapped, unless it was
  the only one. -/
  exhausted : ∀ last,
    setting.GoesOn policy state (max policy.maxAttempts 1) →
      setting.outcome policy state (max policy.maxAttempts 1 - 1) = .fault last →
        ending =
            .fault (if max policy.maxAttempts 1 = 1 then last
              else .retriesExhausted (max policy.maxAttempts 1) last) ∧
          Note.attempts notes =
              setting.firstAttempts policy state (max policy.maxAttempts 1) ∧
            Note.sleeps notes = waits policy (max policy.maxAttempts 1)
  /-- If the context ends before an attempt, the operation ends with it, and the attempts
  before that one are all that is made. -/
  cutOff : ∀ made < max policy.maxAttempts 1, ∀ fault,
    setting.GoesOn policy state made →
      setting.ended (setting.due policy state made) = some fault →
        ending = .fault fault ∧
          Note.attempts notes = setting.firstAttempts policy state made
  /-- No attempt is made once the context has ended. -/
  heeds : ∀ attempt ended ending,
    .made attempt ended ending ∈ notes → ended = none

/-- Writing down what is done changes nothing, and no attempt is made once the context has
ended. -/
theorem exists_notes
    (setting : Setting σ α)
    (policy : RetryPolicy)
    (state : σ) :
    ∃ notes,
      Retry.run policy setting.noted.surroundings (state, []) =
          ((Retry.run policy setting.surroundings state).1,
            (Retry.run policy setting.surroundings state).2, notes) ∧
        ∀ attempt ended ending, .made attempt ended ending ∈ notes → ended = none := by
  obtain ⟨made, isBelow, goesOn, stops⟩ := exists_stop setting policy state
  rcases stops with ⟨fault, hasEnded⟩ | ⟨isLive, isLast⟩
  · rw [run_noted_of_ended isBelow goesOn hasEnded, run_of_ended isBelow goesOn hasEnded]
    exact ⟨_, rfl, fun _ _ _ => live_chronicle goesOn⟩
  · obtain ⟨ending, isOver⟩ : ∃ ending,
        Stage.afterAttempt policy (made + 1) (setting.outcome policy state made) =
          .ended ending := by
      rcases Retry.afterAttempt_eq policy (made + 1) (setting.outcome policy state made) with
        isOver | ⟨notLast, _⟩
      · exact isOver
      · rcases isLast with decisive | isLast
        · exact ⟨_, Stage.afterAttempt_of_not_isRetryable decisive⟩
        · omega
    rw [run_noted_of_afterAttempt isBelow goesOn isLive isOver,
      run_of_afterAttempt isBelow goesOn isLive isOver]
    refine ⟨_, rfl, ?_⟩
    intro attempt ended last member
    rcases List.mem_append.mp member with isEarlier | isMade
    · exact live_chronicle goesOn isEarlier
    · cases List.mem_singleton.mp isMade
      rfl

/-- A retried operation ends as its first decisive attempt does, or its last, or its
context, and does what leads there and no more.  Writing it down changes nothing. -/
theorem accounts_run
    (setting : Setting σ α)
    (policy : RetryPolicy)
    (state : σ) :
    ∃ notes,
      Retry.run policy setting.noted.surroundings (state, []) =
          ((Retry.run policy setting.surroundings state).1,
            (Retry.run policy setting.surroundings state).2, notes) ∧
        setting.Accounts policy state (Retry.run policy setting.surroundings state).1
          notes := by
  obtain ⟨notes, sameRun, heeds⟩ := exists_notes setting policy state
  refine ⟨notes, sameRun, ?_, ?_, ?_, heeds⟩
  · intro made isBelow goesOn isLive decisive
    have isOver :
        Stage.afterAttempt policy (made + 1) (setting.outcome policy state made) =
          .ended (setting.outcome policy state made) :=
      Stage.afterAttempt_of_not_isRetryable decisive
    rw [run_noted_of_afterAttempt isBelow goesOn isLive isOver, Prod.mk.injEq,
      Prod.mk.injEq] at sameRun
    obtain ⟨isEnding, -, rfl⟩ := sameRun
    exact ⟨isEnding.symm, attempts_concat made, sleeps_concat goesOn isLive⟩
  · intro last goesOn isLast
    change setting.GoesOn policy state policy.attempts at goesOn
    change setting.outcome policy state (policy.attempts - 1) = _ at isLast
    obtain ⟨made, isAttempts⟩ : ∃ made, policy.attempts = made + 1 :=
      ⟨policy.attempts - 1, by have : 0 < policy.attempts := Nat.le_max_right ..; omega⟩
    rw [isAttempts, Nat.add_sub_cancel] at isLast
    rw [isAttempts] at goesOn
    obtain ⟨isLive, retryable⟩ := goesOn made (Nat.lt_succ_self made)
    rw [isLast] at retryable
    have isOver :
        (Stage.afterAttempt policy policy.attempts (.fault last) : Stage α) =
          .ended (.fault (if policy.attempts = 1 then last
            else .retriesExhausted policy.attempts last)) :=
      Stage.afterAttempt_last retryable
    rw [isAttempts, ← isLast] at isOver
    have goesOnToLast : setting.GoesOn policy state made :=
      fun earlier less => goesOn earlier (Nat.lt_succ_of_lt less)
    have isBelow : made < policy.attempts := by
      omega
    rw [run_noted_of_afterAttempt isBelow goesOnToLast isLive isOver, Prod.mk.injEq,
      Prod.mk.injEq] at sameRun
    obtain ⟨isEnding, -, rfl⟩ := sameRun
    rw [show max policy.maxAttempts 1 = made + 1 from isAttempts]
    exact ⟨isEnding.symm, attempts_concat made, sleeps_concat goesOnToLast isLive⟩
  · intro made isBelow fault goesOn hasEnded
    rw [run_noted_of_ended isBelow goesOn hasEnded, Prod.mk.injEq,
      Prod.mk.injEq] at sameRun
    obtain ⟨isEnding, -, rfl⟩ := sameRun
    exact ⟨isEnding.symm, attempts_chronicle made⟩

end Setting

namespace Rehearsal

/-- A rest is not begun once the context has ended.  Who sleeps wakes up when it ends, and who
only notes the rest takes no notice. -/
theorem World.rest_eq
    (setup : Setup)
    (context : Nat)
    (duration : Duration)
    (world : World) :
    world.rest setup context duration =
      match world.ended context with
      | some fault => (some fault, world)
      | none =>
          if setup.sleeps then world.waitUntil context (world.timer duration)
          else (none, world.noteRest context duration) := by
  rw [← World.done_eq_ended]
  unfold rest sleep waitUntil Work.await
  cases isOver : world.done context with
  | some fault =>
      rw [Work.race_of_ended (by rw [lookDone, isOver])]
  | none =>
      have goesOn : world.lookDone context = (none, world) := by
        rw [lookDone, isOver]
      cases sleeps : setup.sleeps with
      | false =>
          rw [if_neg Bool.false_ne_true, if_neg Bool.false_ne_true, Work.race_last goesOn]
      | true =>
          rw [if_pos rfl, if_pos rfl]
          simp only [Work.race, lookDone, isOver]
          cases (world.pass context (world.timer duration)).done context <;> rfl

/-- The setting of a scripted operation. -/
def scriptedSetting (setup : Setup) (context : Nat) (script : List OperationStep) :
    Setting Counted String where
  ended state := state.1.ended context
  sleep := (scriptedSurroundings setup context script).rest
  operate := (scriptedSurroundings setup context script).attempt
  brokenOff := by
    intro time state fault isBrokenOff
    simp only [scriptedSurroundings, World.rest_eq] at isBrokenOff ⊢
    cases ended : state.1.ended context with
    | some reason =>
        simpa only [ended] using isBrokenOff
    | none =>
        simp only [ended] at isBrokenOff ⊢
        split at isBrokenOff
        case isTrue sleeps =>
          simpa only [World.waitUntil, World.done_eq_ended, ended, sleeps, if_true]
            using isBrokenOff
        case isFalse =>
          cases isBrokenOff

/-- A scripted operation meets what its setting has it meet. -/
theorem surroundings_scriptedSetting
    (setup : Setup)
    (context : Nat)
    (script : List OperationStep) :
    (scriptedSetting setup context script).surroundings =
      scriptedSurroundings setup context script := by
  have sameRest :
      (scriptedSetting setup context script).surroundings.rest =
        (scriptedSurroundings setup context script).rest := by
    funext time state
    simp only [Setting.surroundings, scriptedSetting, scriptedSurroundings, World.rest_eq]
    cases state.1.ended context <;> rfl
  simp only [Setting.surroundings] at sameRest ⊢
  rw [sameRest]
  rfl

end Rehearsal

namespace Setting

open Rehearsal

/-- An operation whose context is cancelled during the first wait is attempted once. -/
theorem accounts_run_cancelled :
    let script : List OperationStep := [{ result := .error (.toolFailed "q" "503") }]
    let start : Counted := ({ tree := ⟨[{}]⟩, cancelOnRest := some 1 }, 0)
    ∃ notes,
      (scriptedSetting {} 0 script).Accounts {} start (.fault .cancelled) notes ∧
        Note.attempts notes = [(1, .fault (.toolFailed "q" "503"))] ∧
          (Note.sleeps notes).length = 1 := by
  intro script start
  obtain ⟨notes, sameRun, accounts⟩ := accounts_run (scriptedSetting {} 0 script) {} start
  have isCancelled :
      (Retry.run {} (scriptedSetting {} 0 script).surroundings start).1 =
        .fault .cancelled := by
    decide +kernel
  rw [isCancelled] at accounts
  refine ⟨notes, accounts, ?_, ?_⟩
  · rw [← show _ = notes from congrArg (·.2.2) sameRun]
    decide +kernel
  · rw [← show _ = notes from congrArg (·.2.2) sameRun]
    decide +kernel

end Setting

end Runbook
