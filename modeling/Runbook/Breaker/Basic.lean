import Runbook.Duration

namespace Runbook

/-!
# Circuit breakers

A breaker lets calls through while its circuit is closed.  Failures in a row
open the circuit; then calls are turned away until a time has passed.  After
that the circuit is half open: calls are let through again, a number of
successes closes it and one failure opens it again.
-/

/-- When a breaker opens and how it closes again. -/
structure BreakerConfig where
  maxFailures : Nat := 5
  resetTimeout : Duration := .ofSeconds 60
  halfOpenAttempts : Nat := 3
  deriving DecidableEq, Repr

/-- The state of a circuit. -/
inductive Circuit where
  | closed
  | halfOpen
  | opened
  deriving DecidableEq, Repr

namespace Circuit

/-- The name of a state. -/
def name : Circuit → String
  | closed => "closed"
  | halfOpen => "half_open"
  | opened => "open"

end Circuit

/-- A circuit with its counters and the instant until which it stays open. -/
structure Breaker where
  circuit : Circuit := .closed
  failures : Nat := 0
  successes : Nat := 0
  openUntil : Option Instant := none
  deriving DecidableEq, Repr

namespace Breaker

/-- The breaker that has seen nothing yet. -/
def fresh : Breaker := {}

/-- Whether a call at an instant is turned away. -/
def refuses (breaker : Breaker) (now : Instant) : Bool :=
  match breaker.circuit, breaker.openUntil with
  | .opened, some until_ => now < until_
  | _, _ => false

/-- The breaker after it let a call through; an open circuit becomes half open. -/
def letThrough (breaker : Breaker) : Breaker :=
  match breaker.circuit with
  | .opened => { breaker with circuit := .halfOpen, successes := 0 }
  | _ => breaker

/-- Open the circuit until the reset time has passed. -/
def trip (config : BreakerConfig) (now : Instant) (breaker : Breaker) : Breaker :=
  { breaker with
    circuit := .opened
    successes := 0
    openUntil := (now.after? config.resetTimeout).or breaker.openUntil }

/-- Count a success. -/
def succeed (config : BreakerConfig) (breaker : Breaker) : Breaker :=
  match breaker.circuit with
  | .closed => { breaker with failures := 0 }
  | .halfOpen =>
      if config.halfOpenAttempts ≤ breaker.successes + 1 then fresh
      else { breaker with successes := breaker.successes + 1 }
  | .opened => breaker

/-- Whether a failure opens the circuit. -/
def tripsOnFailure (config : BreakerConfig) (breaker : Breaker) : Bool :=
  match breaker.circuit with
  | .closed => config.maxFailures ≤ breaker.failures + 1
  | .halfOpen => true
  | .opened => false

/-- Count a failure. -/
def fail (config : BreakerConfig) (now : Instant) (breaker : Breaker) : Breaker :=
  let counted :=
    match breaker.circuit with
    | .closed => { breaker with failures := breaker.failures + 1 }
    | _ => breaker
  if breaker.tripsOnFailure config then trip config now counted else counted

/-- Whether counting a failure breaks down: the circuit opens, and the instant at
which the reset time has passed is beyond the last one. -/
def failBreaksDown (config : BreakerConfig) (now : Instant) (breaker : Breaker) : Bool :=
  breaker.tripsOnFailure config && (now.after? config.resetTimeout).isNone

end Breaker

end Runbook
