import Runbook.Breaker.Basic
import Runbook.Retry

namespace Runbook

/-!
# Breakers by name

A roster holds one breaker for each name that was ever asked for, in the order
of the names, all under one configuration.
-/

/-- The breakers of a run by name. -/
structure Roster where
  config : BreakerConfig := {}
  entries : List (String × Breaker) := []
  deriving DecidableEq, Repr

namespace Roster

/-- The breaker of a name; one that was never asked for is fresh. -/
def get (roster : Roster) (name : String) : Breaker :=
  match roster.entries.find? (·.1 == name) with
  | some entry => entry.2
  | none => .fresh

/-- Put a breaker at the place of its name. -/
def put (name : String) (breaker : Breaker) :
    List (String × Breaker) → List (String × Breaker)
  | [] => [(name, breaker)]
  | entry :: rest =>
      if name = entry.1 then (name, breaker) :: rest
      else if name < entry.1 then (name, breaker) :: entry :: rest
      else entry :: put name breaker rest

/-- Change the breaker of a name. -/
def update (roster : Roster) (name : String) (change : Breaker → Breaker) : Roster :=
  { roster with entries := put name (change (roster.get name)) roster.entries }

/-- Ask for a breaker, so that it exists from then on. -/
def touch (roster : Roster) (name : String) : Roster := roster.update name id

/-- Ask whether a call may pass: the fault it gets otherwise, and the roster. -/
def ask (roster : Roster) (name : String) (now : Instant) : Option Fault × Roster :=
  if (roster.get name).refuses now then (some (.circuitOpen name), roster.touch name)
  else (none, roster.update name Breaker.letThrough)

/-- Count the success of a call. -/
def succeed (roster : Roster) (name : String) : Roster :=
  roster.update name (Breaker.succeed roster.config)

/-- Count the failure of a call; whether that breaks down, and the roster. -/
def fail (roster : Roster) (name : String) (now : Instant) : Bool × Roster :=
  ((roster.get name).failBreaksDown roster.config now,
    roster.update name (Breaker.fail roster.config now))

end Roster

/-- What a breaker is told of a call that it let through. -/
inductive Verdict where
  | success
  | failure
  | nothing
  deriving DecidableEq, Repr

namespace Verdict

/-- A value is a success, a fault a failure; the end of a context and a breakdown
are neither. -/
def of {α : Type} : Ending α → Verdict
  | .finished (.ok _) => success
  | .finished (.error fault) => if fault.endsContext then nothing else failure
  | .brokeDown => nothing

end Verdict

/-- The breaker of one name, as a protected operation meets it. -/
structure Gate (σ : Type) where
  /-- Ask to pass; the fault if the gate is shut. -/
  ask : σ → Option Fault × σ
  /-- Report a success. -/
  succeed : σ → σ
  /-- Report a failure; whether reporting it breaks down. -/
  fail : σ → Bool × σ

namespace Gate

variable {σ α : Type}

/-- Report how an operation ended that was let through. -/
def report (gate : Gate σ) (ending : Ending α) (state : σ) : Ending α × σ :=
  match Verdict.of ending with
  | .success => (ending, gate.succeed state)
  | .nothing => (ending, state)
  | .failure =>
      let (breaksDown, state) := gate.fail state
      (if breaksDown then .brokeDown else ending, state)

/-- Run a retried operation behind a gate: all its attempts are one call. -/
def run (gate : Gate σ) (policy : RetryPolicy) (around : Surroundings σ α) (state : σ) :
    Ending α × σ :=
  match gate.ask state with
  | (some fault, state) => (.fault fault, state)
  | (none, state) =>
      let (ending, state) := Retry.run policy around state
      gate.report ending state

end Gate

end Runbook
