import Runbook.Duration
import Runbook.Ending

namespace Runbook

/-!
# Retries

A retried operation is attempted up to a number of times, with a wait before
every attempt but the first.  Waits grow by a factor up to a limit.  Where a
retried operation stands is a `Stage`; each function on stages says how one
thing that happens moves it on, so that the same rules hold for an operation
that runs alone and for many that run side by side.
-/

/-- How often and with which waits an operation is attempted. -/
structure RetryPolicy where
  maxAttempts : Nat := 3
  baseDelay : Duration := .ofMillis 100
  maxDelay : Duration := .ofSeconds 5
  multiplier : Double := .ofFloat 2.0
  deriving DecidableEq, Repr

namespace RetryPolicy

/-- One attempt, no waits. -/
def none : RetryPolicy := { maxAttempts := 1 }

/-- The number of attempts; at least one is made. -/
def attempts (policy : RetryPolicy) : Nat := max policy.maxAttempts 1

/-- A machine number to a whole power, by repeated squaring. -/
def power (base result : Float) (exponent : Nat) : (fuel : Nat) → Float
  | 0 => result
  | fuel + 1 =>
      if exponent = 0 then result
      else
        let result := if exponent % 2 = 1 then result * base else result
        if exponent / 2 = 0 then result
        else power (base * base) result (exponent / 2) fuel

/-- The smaller of two machine numbers; one that is not a number does not count. -/
def smaller (a b : Float) : Float :=
  if a.isNaN then b else if b.isNaN then a else if a < b then a else b

/-- The larger of two machine numbers; one that is not a number does not count. -/
def larger (a b : Float) : Float :=
  if a.isNaN then b else if b.isNaN then a else if a < b then b else a

/-- The wait before an attempt; attempts count from one. -/
def delayBefore (policy : RetryPolicy) (attempt : Nat) : Duration :=
  if attempt ≤ 1 then 0
  else
    let exponent := min (attempt - 2) 2147483647
    let grown := policy.baseDelay.toSeconds * power policy.multiplier.toFloat 1.0 exponent 64
    let capped := larger (smaller grown policy.maxDelay.toSeconds) 0.0
    (Duration.ofSeconds? capped).getD policy.maxDelay

end RetryPolicy

/-- Where a retried operation stands. -/
inductive Stage (α : Type) where
  /-- The attempt of this number is next or under way. -/
  | attempting (attempt : Nat)
  /-- The wait before the attempt of this number is next or under way. -/
  | resting (attempt : Nat)
  /-- It is over. -/
  | ended (ending : Ending α)
  deriving DecidableEq

namespace Stage

variable {α : Type}

/-- An attempt may begin only while the context has not ended. -/
def enter (attempt : Nat) (ended : Option Fault) : Stage α :=
  match ended with
  | some fault => .ended (.fault fault)
  | none => attempting attempt

/-- What follows an attempt: a value, a breakdown and a fault that no further
attempt can help end the operation; otherwise there is a wait, unless it was the
last attempt. -/
def afterAttempt (policy : RetryPolicy) (attempt : Nat) : Ending α → Stage α
  | .brokeDown => .ended .brokeDown
  | .finished (.ok value) => .ended (.value value)
  | .finished (.error fault) =>
      if fault.endsContext || !fault.isRetryable then .ended (.fault fault)
      else if attempt < policy.attempts then resting (attempt + 1)
      else if policy.attempts = 1 then .ended (.fault fault)
      else .ended (.fault (.retriesExhausted policy.attempts fault))

end Stage

/-- What a retried operation meets.  Each function may change the state `σ` of
everything else, so anything may happen meanwhile. -/
structure Surroundings (σ α : Type) where
  /-- Look whether the context has ended. -/
  look : σ → Option Fault × σ
  /-- Wait for a time, unless the context ends first. -/
  rest : Duration → σ → Option Fault × σ
  /-- Make the attempt of a number. -/
  attempt : Nat → σ → Ending α × σ

namespace Retry

variable {σ α : Type}

/-- Carry a stage on until the operation is over. -/
def carryOn (policy : RetryPolicy) (around : Surroundings σ α) :
    (fuel : Nat) → Stage α → σ → Ending α × σ
  | _, .ended ending, state => (ending, state)
  | 0, _, state => (.fault (.internal "retry loop ran no attempts"), state)
  | fuel + 1, .attempting attempt, state =>
      let (ending, state) := around.attempt attempt state
      carryOn policy around fuel (.afterAttempt policy attempt ending) state
  | fuel + 1, .resting attempt, state =>
      match around.rest (policy.delayBefore attempt) state with
      | (some fault, state) => (.fault fault, state)
      | (none, state) =>
          let (ended, state) := around.look state
          carryOn policy around fuel (.enter attempt ended) state

/-- Run an operation under a policy. -/
def run (policy : RetryPolicy) (around : Surroundings σ α) (state : σ) : Ending α × σ :=
  let (ended, state) := around.look state
  carryOn policy around (2 * policy.attempts) (.enter 1 ended) state

end Retry

end Runbook
