import Runbook.Breaker.Roster

namespace Runbook

/-!
# What happens to a breaker

Calls pass a breaker in two parts: a call asks to pass, and a call that was let through
reports much later how it ended.  The parts of different calls come in any order, and a
breaker does not tell from which call a report comes.  Each event carries the instant that
was read for it.  The instants may be out of order as well, since a call reads the clock
before it gets hold of the breaker.
-/

namespace Circuit

/-- The ways in which a circuit turns from one state to another. -/
inductive Turns : Circuit → Circuit → Prop where
  | trips : Turns closed opened
  | probes : Turns opened halfOpen
  | recovers : Turns halfOpen closed
  | reopens : Turns halfOpen opened

end Circuit

namespace Breaker

/-- What a call has to do with a breaker. -/
inductive Signal where
  /-- It asks to pass. -/
  | request
  /-- It was let through and has ended. -/
  | report (verdict : Verdict)
  deriving DecidableEq, Repr

/-- A signal of a call, with the instant that was read for it. -/
structure Event where
  call : Nat
  now : Instant
  signal : Signal
  deriving DecidableEq, Repr

/-- The breaker after an event. -/
def react (config : BreakerConfig) (breaker : Breaker) (event : Event) : Breaker :=
  match event.signal with
  | .request => if breaker.refuses event.now then breaker else breaker.letThrough
  | .report .success => breaker.succeed config
  | .report .failure => breaker.fail config event.now
  | .report .nothing => breaker

/-- A fresh breaker after events, one after the other. -/
def after (config : BreakerConfig) (events : List Event) : Breaker :=
  events.foldl (react config) fresh

variable {config : BreakerConfig} {breaker next : Breaker} {event : Event}
  {events : List Event}

@[simp] theorem after_nil :
    after config [] = fresh := by
  rfl

@[simp] theorem after_concat :
    after config (events ++ [event]) = (after config events).react config event := by
  simp [after]

/-- Whether an event leaves a breaker alone: a request that is refused or finds the circuit
closed or half open, a report that is neither a success nor a failure, and any report that
finds the circuit open. -/
def Ignores (breaker : Breaker) (event : Event) : Prop :=
  match event.signal with
  | .request => breaker.circuit = .opened → breaker.refuses event.now = true
  | .report .nothing => True
  | .report _ => breaker.circuit = .opened

/-- All that events do to breakers. -/
inductive Reacts (config : BreakerConfig) (breaker : Breaker) (event : Event) :
    Breaker → Prop where
  | ignores :
      breaker.Ignores event →
      Reacts config breaker event breaker
  | probes :
      breaker.circuit = .opened →
      event.signal = .request →
      breaker.refuses event.now = false →
      Reacts config breaker event { breaker with circuit := .halfOpen, successes := 0 }
  | forgives :
      breaker.circuit = .closed →
      event.signal = .report .success →
      Reacts config breaker event { breaker with failures := 0 }
  | countsFailure :
      breaker.circuit = .closed →
      event.signal = .report .failure →
      breaker.failures + 1 < config.maxFailures →
      Reacts config breaker event { breaker with failures := breaker.failures + 1 }
  | trips :
      breaker.circuit = .closed →
      event.signal = .report .failure →
      config.maxFailures ≤ breaker.failures + 1 →
      Reacts config breaker event
        (trip config event.now { breaker with failures := breaker.failures + 1 })
  | countsSuccess :
      breaker.circuit = .halfOpen →
      event.signal = .report .success →
      breaker.successes + 1 < config.halfOpenAttempts →
      Reacts config breaker event { breaker with successes := breaker.successes + 1 }
  | recovers :
      breaker.circuit = .halfOpen →
      event.signal = .report .success →
      config.halfOpenAttempts ≤ breaker.successes + 1 →
      Reacts config breaker event fresh
  | reopens :
      breaker.circuit = .halfOpen →
      event.signal = .report .failure →
      Reacts config breaker event (trip config event.now breaker)

theorem reacts_request
    (isRequest : event.signal = .request) :
    Reacts config breaker event (breaker.react config event) := by
  by_cases isOpen : breaker.circuit = .opened
  · cases refuses : breaker.refuses event.now with
    | true =>
        rw [show breaker.react config event = breaker by simp [react, isRequest, refuses]]
        exact .ignores (by simp [Ignores, isRequest, refuses])
    | false =>
        rw [show breaker.react config event =
            { breaker with circuit := .halfOpen, successes := 0 } by
          simp [react, isRequest, refuses, letThrough, isOpen]]
        exact .probes isOpen isRequest refuses
  · rw [show breaker.react config event = breaker by
      simp only [react, isRequest, letThrough]
      split <;> simp_all]
    exact .ignores (by simp [Ignores, isRequest, isOpen])

theorem reacts_success
    (isSuccess : event.signal = .report .success) :
    Reacts config breaker event (breaker.react config event) := by
  rw [show breaker.react config event = breaker.succeed config by simp [react, isSuccess]]
  cases circuit : breaker.circuit with
  | closed =>
      rw [show breaker.succeed config = { breaker with failures := 0 } by
        simp [succeed, circuit]]
      exact .forgives circuit isSuccess
  | halfOpen =>
      by_cases isEnough : config.halfOpenAttempts ≤ breaker.successes + 1
      · rw [show breaker.succeed config = fresh by simp [succeed, circuit, isEnough]]
        exact .recovers circuit isSuccess isEnough
      · rw [show breaker.succeed config =
            { breaker with successes := breaker.successes + 1 } by
          simp [succeed, circuit, isEnough]]
        exact .countsSuccess circuit isSuccess (Nat.lt_of_not_le isEnough)
  | opened =>
      rw [show breaker.succeed config = breaker by simp [succeed, circuit]]
      exact .ignores (by simp [Ignores, isSuccess, circuit])

theorem reacts_failure
    (isFailure : event.signal = .report .failure) :
    Reacts config breaker event (breaker.react config event) := by
  rw [show breaker.react config event = breaker.fail config event.now by
    simp [react, isFailure]]
  cases circuit : breaker.circuit with
  | closed =>
      by_cases isEnough : config.maxFailures ≤ breaker.failures + 1
      · rw [show breaker.fail config event.now =
            trip config event.now { breaker with failures := breaker.failures + 1 } by
          simp [fail, tripsOnFailure, circuit, isEnough]]
        exact .trips circuit isFailure isEnough
      · rw [show breaker.fail config event.now =
            { breaker with failures := breaker.failures + 1 } by
          simp [fail, tripsOnFailure, circuit, isEnough]]
        exact .countsFailure circuit isFailure (Nat.lt_of_not_le isEnough)
  | halfOpen =>
      rw [show breaker.fail config event.now = trip config event.now breaker by
        simp [fail, tripsOnFailure, circuit]]
      exact .reopens circuit isFailure
  | opened =>
      rw [show breaker.fail config event.now = breaker by
        simp [fail, tripsOnFailure, circuit]]
      exact .ignores (by simp [Ignores, isFailure, circuit])

/-- A breaker reacts to an event in one of these ways. -/
theorem reacts_react
    (config : BreakerConfig)
    (breaker : Breaker)
    (event : Event) :
    Reacts config breaker event (breaker.react config event) := by
  cases signal : event.signal with
  | request =>
      exact reacts_request signal
  | report verdict =>
      cases verdict with
      | success =>
          exact reacts_success signal
      | failure =>
          exact reacts_failure signal
      | nothing =>
          rw [show breaker.react config event = breaker by simp [react, signal]]
          exact .ignores (by simp [Ignores, signal])

/-- A reaction turns a circuit in one of its ways, or not at all. -/
theorem turns_of_reacts
    (reacts : Reacts config breaker event next) :
    next.circuit = breaker.circuit ∨ Circuit.Turns breaker.circuit next.circuit := by
  cases reacts with
  | ignores _ =>
      exact Or.inl rfl
  | probes isOpen _ _ =>
      exact Or.inr (isOpen ▸ .probes)
  | forgives _ _ =>
      exact Or.inl rfl
  | countsFailure _ _ _ =>
      exact Or.inl rfl
  | trips isClosed _ _ =>
      exact Or.inr (isClosed ▸ .trips)
  | countsSuccess _ _ _ =>
      exact Or.inl rfl
  | recovers isHalfOpen _ _ =>
      exact Or.inr (isHalfOpen ▸ .recovers)
  | reopens isHalfOpen _ =>
      exact Or.inr (isHalfOpen ▸ .reopens)

/-- An open circuit ignores everything but a request that comes when it may. -/
theorem Reacts.of_opened
    (reacts : Reacts config breaker event next)
    (isOpen : breaker.circuit = .opened) :
    next = breaker ∨
      event.signal = .request ∧ breaker.refuses event.now = false ∧
        next = { breaker with circuit := .halfOpen, successes := 0 } := by
  cases reacts with
  | ignores _ =>
      exact Or.inl rfl
  | probes _ isRequest passes =>
      exact Or.inr ⟨isRequest, passes, rfl⟩
  | _ =>
      simp_all

end Breaker

namespace Roster

open Breaker

/-- A roster after an event at the breaker of a name. -/
def meet (roster : Roster) (name : String) (event : Event) : Roster :=
  match event.signal with
  | .request => (roster.ask name event.now).2
  | .report .success => roster.succeed name
  | .report .failure => (roster.fail name event.now).2
  | .report .nothing => roster

theorem find?_put
    (name other : String)
    (breaker : Breaker)
    (entries : List (String × Breaker)) :
    (put name breaker entries).find? (·.1 == other) =
      if name = other then some (name, breaker) else entries.find? (·.1 == other) := by
  induction entries with
  | nil =>
      by_cases isOther : name = other <;> simp [put, isOther]
  | cons entry rest inductionHypothesis =>
      unfold put
      by_cases isOther : name = other
      · subst isOther
        split
        · simp
        · split
          · simp
          · rename_i notName _
            simp [inductionHypothesis, Ne.symm notName]
      · split
        · rename_i isName
          simp [isOther, ← isName]
        · split
          · simp [isOther]
          · simp only [List.find?_cons, inductionHypothesis, if_neg isOther]

/-- Changing the breaker of a name leaves those of other names alone. -/
theorem get_update
    (roster : Roster)
    (name other : String)
    (change : Breaker → Breaker) :
    (roster.update name change).get other =
      if name = other then change (roster.get name) else roster.get other := by
  by_cases isOther : name = other <;> simp [get, update, find?_put, isOther]

/-- The breaker of a name reacts to the events that a roster meets under that name, and to
no others. -/
theorem get_meet
    (roster : Roster)
    (name other : String)
    (event : Event) :
    (roster.meet name event).get other =
      if name = other then (roster.get name).react roster.config event
      else roster.get other := by
  cases signal : event.signal with
  | request =>
      by_cases refuses : (roster.get name).refuses event.now = true
      · simp [meet, ask, touch, react, signal, refuses, get_update]
      · simp [meet, ask, react, signal, refuses, get_update]
  | report verdict =>
      cases verdict with
      | success =>
          simp [meet, Roster.succeed, react, signal, get_update]
      | failure =>
          simp [meet, Roster.fail, react, signal, get_update]
      | nothing =>
          by_cases isOther : name = other <;> simp [meet, react, signal, isOther]

end Roster

end Runbook
