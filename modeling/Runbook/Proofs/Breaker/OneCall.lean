import Runbook.Proofs.Breaker.Gates
import Runbook.Proofs.Retry

namespace Runbook

/-!
# One call for all attempts

A retried operation behind a gate comes to the breaker as one call.  A breaker that refuses
keeps all attempts from being made.  One that lets the call pass hears of it once more, and
what it hears depends only on how the operation ended after all its attempts.
-/

namespace Gate

variable {σ α : Type} {gate : Gate σ} {name : String} {roster : σ → Roster}
  {clock : σ → Instant}

/-- What is done in the course of a call, and what came of it. -/
inductive Deed (α : Type) where
  | asked (refusal : Option Fault)
  | tried (trial : Trial α)
  | succeeded
  | failed (breaksDown : Bool)
  deriving DecidableEq

/-- A gate where everything that is done at it is written down. -/
def noted (gate : Gate σ) : Gate (σ × List (Deed α)) where
  ask := History.noting gate.ask .asked
  succeed state := (gate.succeed state.1, state.2 ++ [.succeeded])
  fail := History.noting gate.fail .failed

/-- Run a retried operation behind a gate, and write down what is done. -/
def call (gate : Gate σ) (policy : RetryPolicy) (around : Surroundings σ α) (state : σ) :
    Ending α × σ × List (Deed α) :=
  gate.noted.run policy (around.noted .tried) (state, [])

/-- What a breaker hears of an operation that it let pass. -/
def heard (breaksDown : Bool) : Ending α → List (Deed α)
  | .finished (.ok _) => [.succeeded]
  | .finished (.error .cancelled) => []
  | .finished (.error .deadlineExceeded) => []
  | .finished (.error _) => [.failed breaksDown]
  | .brokeDown => []

theorem heard_eq_verdict
    (breaksDown : Bool)
    (ending : Ending α) :
    heard breaksDown ending =
      match Verdict.of ending with
      | .success => [.succeeded]
      | .failure => [.failed breaksDown]
      | .nothing => [] := by
  cases ending with
  | brokeDown =>
      rfl
  | finished result =>
      cases result with
      | ok value =>
          rfl
      | error fault =>
          cases fault <;> rfl

theorem report_noted
    (gate : Gate σ)
    (ending : Ending α)
    (state : σ)
    (log : List (Deed α)) :
    gate.noted.report ending (state, log) =
      ((gate.report ending state).1, (gate.report ending state).2,
        log ++ heard (gate.fail state).1 ending) := by
  rw [heard_eq_verdict]
  unfold report
  cases Verdict.of ending with
  | success =>
      rfl
  | failure =>
      rfl
  | nothing =>
      simp

/-- What comes of a retried operation behind a gate that stands for a breaker. -/
structure OneCall (gate : Gate σ) (name : String) (roster : σ → Roster)
    (clock : σ → Instant) (policy : RetryPolicy) (around : Surroundings σ α) (state : σ)
    (ending : Ending α) (later : σ) (deeds : List (Deed α)) : Prop where
  /-- If the breaker refuses, nothing is attempted and nobody waits. -/
  refused : ((roster state).get name).refuses (clock state) = true →
    ending = .fault (.circuitOpen name) ∧
      deeds = [.asked (some (.circuitOpen name))] ∧
        (roster later).get name = (roster state).get name
  /-- Otherwise the operation is attempted as often as its policy allows, and the breaker
  hears how it ended.  The operation ends as it does without the breaker, unless counting
  its failure breaks down. -/
  passed : ((roster state).get name).refuses (clock state) = false →
    ∃ admitted ended worked trials attempts,
      gate.ask state = (none, admitted) ∧
        (roster admitted).get name = ((roster state).get name).letThrough ∧
          Retry.run policy around admitted = (ended, worked) ∧
            deeds = .asked none :: trials.map .tried ++ heard (gate.fail worked).1 ended ∧
              Trial.numbers trials = List.range' 1 attempts ∧
                attempts ≤ max policy.maxAttempts 1 ∧
                  roster later =
                      (roster worked).meet name
                        ⟨0, clock worked, .report (Verdict.of ended)⟩ ∧
                    ending =
                      if Verdict.of ended = .failure ∧
                          ((roster worked).get name).failBreaksDown (roster worked).config
                            (clock worked) = true
                      then .brokeDown
                      else ended

theorem call_of_refused
    {state : σ}
    {fault : Fault}
    (isRefused : (gate.ask state).1 = some fault)
    (policy : RetryPolicy)
    (around : Surroundings σ α) :
    gate.call policy around state =
      (.fault fault, (gate.ask state).2, [.asked (some fault)]) := by
  have isRefusedToo : ((gate.noted (α := α)).ask (state, [])).1 = some fault := isRefused
  rw [call, run_eq_execute, execute_of_refused isRefusedToo, ← isRefused]
  rfl

theorem call_of_passed
    {state : σ}
    (passes : (gate.ask state).1 = none)
    (policy : RetryPolicy)
    (around : Surroundings σ α) :
    ∃ trials attempts,
      gate.call policy around state =
          ((gate.run policy around state).1, (gate.run policy around state).2,
            .asked none :: trials.map .tried ++
              heard (gate.fail (Retry.run policy around (gate.ask state).2).2).1
                (Retry.run policy around (gate.ask state).2).1) ∧
        Trial.numbers trials = List.range' 1 attempts ∧
          attempts ≤ max policy.maxAttempts 1 := by
  have passesToo : ((gate.noted (α := α)).ask (state, [])).1 = none := passes
  obtain ⟨trials, attempts, isRun, areNumbered, isWithin⟩ :=
    Retry.run_noted policy around Deed.tried (gate.ask state).2 [.asked none]
  refine ⟨trials, attempts, ?_, areNumbered, isWithin⟩
  have isAsked :
      (gate.noted.ask (state, [])).2 = ((gate.ask state).2, [(Deed.asked none : Deed α)]) := by
    rw [← passes]
    rfl
  rw [call, run_eq_execute, run_eq_execute, execute_of_passed passesToo,
    execute_of_passed passes, isAsked, isRun, report_noted]
  rfl

/-- A retried operation behind a gate is one call to the breaker that the gate stands
for. -/
theorem oneCall_of_guards
    (guards : gate.Guards name roster clock)
    (policy : RetryPolicy)
    (around : Surroundings σ α)
    (state : σ) :
    ∃ deeds,
      gate.call policy around state =
          ((gate.run policy around state).1, (gate.run policy around state).2, deeds) ∧
        OneCall gate name roster clock policy around state (gate.run policy around state).1
          (gate.run policy around state).2 deeds := by
  cases refuses : ((roster state).get name).refuses (clock state) with
  | true =>
      have isRefused : (gate.ask state).1 = some (.circuitOpen name) := by
        rw [guards.ask_fst, if_pos refuses]
      have sameBreaker :
          (roster (gate.ask state).2).get name = (roster state).get name := by
        rw [guards.get_ask state 0]
        simp [Breaker.react, refuses]
      rw [call_of_refused isRefused, run_eq_execute, execute_of_refused isRefused]
      exact ⟨_, rfl, fun _ => ⟨rfl, rfl, sameBreaker⟩, fun passes => by simp [refuses] at passes⟩
  | false =>
      have passes : (gate.ask state).1 = none := by
        rw [guards.ask_fst, if_neg (by simp [refuses])]
      have isThrough :
          (roster (gate.ask state).2).get name =
            ((roster state).get name).letThrough := by
        rw [guards.get_ask state 0]
        simp [Breaker.react, refuses]
      obtain ⟨trials, attempts, isCall, areNumbered, isWithin⟩ :=
        call_of_passed passes policy around
      refine ⟨_, isCall, fun isRefused => by simp [refuses] at isRefused, fun _ => ?_⟩
      rw [run_eq_execute, execute_of_passed passes]
      exact ⟨_, _, _, trials, attempts, Prod.ext passes rfl, isThrough, rfl, rfl, areNumbered,
        isWithin, guards.report_snd _ _ 0, guards.report_fst _ _⟩

/-- An operation whose only attempt fails. -/
def failing : Surroundings Rehearsal.Counted String :=
  Rehearsal.scriptedSurroundings {} 0 [{ result := .error (.toolFailed "q" "503") }]

/-- A world whose breakers have seen nothing yet. -/
def unseen (config : BreakerConfig) : Rehearsal.Counted :=
  ({ roster := { config := config } }, 0)

/-- An operation that fails opens a breaker that tolerates no failure. -/
theorem oneCall_of_guards_opens :
    ∃ ending later deeds,
      OneCall (Rehearsal.countedGate "q") "q" (·.1.roster) (·.1.breakerClock) .none failing
          (unseen ⟨1, 10, 1⟩) ending later deeds ∧
        ending = .fault (.toolFailed "q" "503") ∧
          deeds =
              [.asked none, .tried (.looked none),
                .tried (.attempted 1 (.fault (.toolFailed "q" "503"))), .failed false] ∧
            later.1.roster.get "q" = ⟨.opened, 1, 0, some 10⟩ := by
  obtain ⟨deeds, isCall, oneCall⟩ :=
    oneCall_of_guards (guards_counted "q") .none failing (unseen ⟨1, 10, 1⟩)
  refine ⟨_, _, deeds, oneCall, by decide +kernel, ?_, by decide +kernel⟩
  rw [← show _ = deeds from congrArg (·.2.2) isCall]
  decide +kernel

/-- Where the reset time reaches beyond the last instant, an operation that was let through
ends with its fault, but the call breaks down. -/
theorem brokeDown_of_long_reset :
    ((Rehearsal.countedGate "q").ask
          (unseen ⟨1, .ofSeconds 18446744073709551615, 1⟩)).1 =
        none ∧
      (Retry.run .none failing
          ((Rehearsal.countedGate "q").ask
            (unseen ⟨1, .ofSeconds 18446744073709551615, 1⟩)).2).1 =
          .fault (.toolFailed "q" "503") ∧
        ((Rehearsal.countedGate "q").run .none failing
            (unseen ⟨1, .ofSeconds 18446744073709551615, 1⟩)).1 =
          .brokeDown := by
  decide +kernel

end Gate

end Runbook
