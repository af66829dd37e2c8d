import Mathlib.Data.List.Induction
import Runbook.Proofs.Breaker.Events
import Runbook.Proofs.Rehearsal.Chunks
import Runbook.Settings.Basic

namespace Runbook

/-!
# Numbers that are too large

The settings have a number of permits and two lengths of time, and none of these is bounded
from above.  The machinery has bounds: there can only be so many permits, and no instant comes
after the last one.  A batch that asks for more breaks down before its first call.  A breaker
that trips beyond the last instant breaks down as well, but only after its circuit was opened:
it is left open without an instant until which it is, and lets the next call through.
-/

namespace Breaker

variable {config : BreakerConfig} {events : List Event} {event : Event}

/-! ## Breakers -/

/-- A failure tripped the breaker at an instant that leaves room for the reset time, and the
circuit was not closed since. -/
inductive Timed (config : BreakerConfig) : List Event → Prop where
  | trips {events : List Event} {event : Event} :
      (after config events).tripsOnFailure config = true →
      event.signal = .report .failure →
      event.now.after? config.resetTimeout ≠ none →
      Timed config (events ++ [event])
  | lasts {events : List Event} {event : Event} :
      Timed config events →
      (after config (events ++ [event])).circuit ≠ .closed →
      Timed config (events ++ [event])

theorem circuit_fail_of_trips
    {breaker : Breaker}
    (trips : breaker.tripsOnFailure config = true)
    (now : Instant) :
    (breaker.fail config now).circuit = .opened := by
  rw [fail, if_pos trips]
  rfl

theorem Timed.notClosed
    (timed : Timed config events) :
    (after config events).circuit ≠ .closed := by
  cases timed with
  | trips trips isFailure _ =>
      rw [after_concat, react, isFailure]
      simp [circuit_fail_of_trips trips]
  | lasts _ notClosed =>
      exact notClosed

theorem not_timed_nil :
    ¬ Timed config [] :=
  fun timed => timed.notClosed rfl

theorem timed_concat_iff :
    Timed config (events ++ [event]) ↔
      ((after config events).tripsOnFailure config = true ∧
          event.signal = .report .failure ∧ event.now.after? config.resetTimeout ≠ none) ∨
        (Timed config events ∧ (after config (events ++ [event])).circuit ≠ .closed) := by
  constructor
  · intro timed
    generalize isWhole : events ++ [event] = whole at timed
    cases timed with
    | trips trips isFailure fits =>
        obtain ⟨rfl, isLast⟩ := List.append_inj' isWhole rfl
        cases isLast
        exact Or.inl ⟨trips, isFailure, fits⟩
    | lasts timed notClosed =>
        obtain ⟨rfl, isLast⟩ := List.append_inj' isWhole rfl
        cases isLast
        exact Or.inr ⟨timed, notClosed⟩
  · rintro (⟨trips, isFailure, fits⟩ | ⟨timed, notClosed⟩)
    · exact .trips trips isFailure fits
    · exact .lasts timed notClosed

/-- A breaker has an instant until which it is open if it was tripped with room for one. -/
theorem openUntil_ne_none_iff :
    (after config events).openUntil ≠ none ↔ Timed config events := by
  induction events using List.reverseRecOn with
  | nil =>
      exact ⟨fun isSet => absurd rfl isSet, fun timed => absurd timed not_timed_nil⟩
  | append_singleton events event inductionHypothesis =>
      rw [timed_concat_iff, after_concat]
      have reacts := reacts_react config (after config events) event
      have notClosed := @Timed.notClosed config events
      rw [← inductionHypothesis] at notClosed ⊢
      clear inductionHypothesis
      generalize after config events = breaker at reacts notClosed ⊢
      generalize breaker.react config event = next at reacts ⊢
      have noExpiry : breaker.circuit = .closed → breaker.openUntil = none :=
        fun isClosed => by_contra fun isSet => notClosed isSet isClosed
      cases reacts with
      | ignores isIgnored =>
          have noTrip :
              ¬ (breaker.tripsOnFailure config = true ∧ event.signal = .report .failure) := by
            rintro ⟨trips, isFailure⟩
            rw [Ignores, isFailure] at isIgnored
            simp [tripsOnFailure, isIgnored] at trips
          tauto
      | probes isOpen isRequest _ =>
          simp [isRequest]
      | forgives isClosed isSuccess =>
          simp [isClosed, isSuccess, noExpiry isClosed]
      | countsFailure isClosed isFailure tooFew =>
          simp [tripsOnFailure, isClosed, noExpiry isClosed, Nat.not_le_of_lt tooFew]
      | trips isClosed isFailure isEnough =>
          simp [trip, tripsOnFailure, isClosed, isFailure, isEnough, noExpiry isClosed]
      | countsSuccess isHalfOpen isSuccess _ =>
          simp [isSuccess, isHalfOpen]
      | recovers isHalfOpen isSuccess _ =>
          simp [isSuccess, fresh]
      | reopens isHalfOpen isFailure =>
          simp [trip, tripsOnFailure, isHalfOpen, isFailure]
          tauto

/-- Counting a failure breaks down where it trips the breaker beyond the last instant. -/
theorem failBreaksDown_iff
    {breaker : Breaker}
    {now : Instant} :
    breaker.failBreaksDown config now = true ↔
      breaker.tripsOnFailure config = true ∧ Instant.bound ≤ now + config.resetTimeout := by
  rw [failBreaksDown, Bool.and_eq_true, Option.isNone_iff_eq_none, Instant.after?_eq_none_iff]

theorem refuses_of_noExpiry
    {breaker : Breaker}
    (noExpiry : breaker.openUntil = none)
    (now : Instant) :
    breaker.refuses now = false := by
  rw [refuses, noExpiry]
  cases breaker.circuit <;> rfl

end Breaker

/-! ## Batches -/

/-- A batch asks for more than there is: more permits than there can be, or a timeout that ends
beyond the last instant. -/
def BatchSettings.Overreaches (settings : BatchSettings) (limit : Nat) (now : Instant) : Prop :=
  Execution.maxPermits < limit ∨
    (settings.timeout ≠ 0 ∧ Instant.bound ≤ now + Duration.ofSeconds settings.timeout)

theorem BatchSettings.not_admits_iff
    (settings : BatchSettings)
    (limit : Nat)
    (now : Instant) :
    ¬ { settings.config with maxConcurrency := limit }.Admits now ↔
      settings.Overreaches limit now := by
  have permits : max limit 1 ≤ Execution.maxPermits ↔ limit ≤ Execution.maxPermits :=
    Nat.max_le.trans (and_iff_left (by decide))
  rw [BatchConfig.Admits, Overreaches, not_and_or, permits, Nat.not_le, not_not,
    BatchConfig.limit?_eq_none_iff]
  refine or_congr_right ?_
  by_cases noTimeout : settings.timeout = 0
  · simp [config, noTimeout]
  · simp [config, noTimeout]

namespace Rehearsal.World

variable {setup : Setup} {context limit size : Nat} {calls : List Call}
  {table : Option (List (String × List String))} {world : World}

/-- Two or more calls whose dependencies are not refused break down where the batch cannot be
begun. -/
theorem carryOut_eq_brokeDown_iff
    (several : 2 ≤ calls.length) :
    (world.carryOut setup context calls table limit).1 = .brokeDown ↔
      (∃ schedule, Execution.scheduleOf calls table = .ok schedule) ∧
        ¬ { setup.batch with maxConcurrency := limit }.Admits world.now := by
  match calls, several with
  | first :: second :: rest, _ =>
      cases scheduled : Execution.scheduleOf (first :: second :: rest) table with
      | error fault =>
          simp [carryOut, Execution.of, scheduled]
      | ok schedule =>
          let batch : Batch :=
            .start (first :: second :: rest) schedule (max limit 1) (!setup.batch.continueOnError)
          have isBatch :
              Execution.of setup.batch (first :: second :: rest) table limit = .batch batch := by
            rw [Execution.of, scheduled]
          rw [carryOut, isBatch, admits_iff_of_permits setup context batch limit rfl]
          simp only [Except.ok.injEq, exists_eq', true_and]
          cases world.batchContext setup context with
          | none =>
              simp
          | some begun =>
              dsimp only
              split <;> simp_all

/-- Calls that are one chunk break down where the batch cannot be begun. -/
theorem carryOutInChunks_eq_brokeDown_iff
    (someCalls : calls ≠ [])
    (isChunk : calls.length ≤ Execution.chunkSize setup.batch size)
    (goesOn : world.ended context = none) :
    (world.carryOutInChunks setup context calls size).1 = .brokeDown ↔
      ¬ setup.batch.Admits world.now := by
  have oneChunk : Execution.chunks (Execution.chunkSize setup.batch size) calls = [calls] := by
    match calls, someCalls with
    | first :: rest, _ =>
        have isRest : rest.length ≤ Execution.chunkSize setup.batch size - 1 :=
          Nat.le_sub_one_of_lt isChunk
        rw [Execution.chunks, List.take_of_length_le isRest, List.drop_eq_nil_of_le isRest,
          Execution.chunks]
  rw [carryOutInChunks, oneChunk, carryOutChunks, admits_iff setup context calls]
  simp only [Bool.true_or, if_true, goesOn]
  cases world.batchContext setup context with
  | none =>
      simp
  | some begun =>
      dsimp only
      split <;> simp_all [carryOutChunks]

end Rehearsal.World

/-! ## Settings -/

open Rehearsal (Setup World)

/-- What comes of the numbers of settings, small or large. -/
structure Endures (batch : BatchSettings) (breaker : BreakerSettings) : Prop where
  batch_iff :
    ∀ (setup : Setup) context calls table limit (world : World),
      setup.batch = batch.config → 2 ≤ calls.length →
      ((world.carryOut setup context calls table limit).1 = .brokeDown ↔
        (∃ schedule, Execution.scheduleOf calls table = .ok schedule) ∧
          batch.Overreaches limit world.now)
  chunk_iff :
    ∀ (setup : Setup) context calls size (world : World),
      setup.batch = batch.config → calls ≠ [] →
      calls.length ≤ Execution.chunkSize setup.batch size → world.ended context = none →
      ((world.carryOutInChunks setup context calls size).1 = .brokeDown ↔
        batch.Overreaches (max batch.maxConcurrency 1) world.now)
  trip_iff :
    ∀ (kept : Breaker) now, kept.failBreaksDown breaker.config now = true ↔
      kept.tripsOnFailure breaker.config = true ∧
        Instant.bound ≤ now + Duration.ofSeconds breaker.resetTimeout
  opens :
    ∀ (kept : Breaker) now, kept.tripsOnFailure breaker.config = true →
      (kept.fail breaker.config now).circuit = .opened
  openUntil_iff :
    ∀ events, (Breaker.after breaker.config events).openUntil ≠ none ↔
      Breaker.Timed breaker.config events
  letsThrough :
    ∀ (kept : Breaker) now, kept.openUntil = none → kept.refuses now = false

/--
Two or more calls whose dependencies are not refused break down before the first of them exactly
if they ask for more permits than there can be, or for a timeout that ends beyond the last
instant; so does a chunk of calls when its turn comes and the context goes on.  Counting a
failure breaks down exactly if it trips the breaker and the reset time ends beyond the last
instant.  Then the circuit is opened all the same.  Whatever has happened to a breaker, it has an
instant until which it is open exactly if a failure has tripped it with room for the reset time
since the circuit was last closed, and without such an instant it lets every call through.
-/
theorem endures_settings
    (batch : BatchSettings)
    (breaker : BreakerSettings) :
    Endures batch breaker where
  batch_iff := by
    intro setup context calls table limit world isConfig several
    rw [World.carryOut_eq_brokeDown_iff several, isConfig, batch.not_admits_iff]
  chunk_iff := by
    intro setup context calls size world isConfig someCalls isChunk goesOn
    rw [World.carryOutInChunks_eq_brokeDown_iff someCalls isChunk goesOn, isConfig]
    exact batch.not_admits_iff (max batch.maxConcurrency 1) world.now
  trip_iff := fun _ _ => Breaker.failBreaksDown_iff
  opens := fun _ now trips => Breaker.circuit_fail_of_trips trips now
  openUntil_iff := fun _ => Breaker.openUntil_ne_none_iff
  letsThrough := fun _ now noExpiry => Breaker.refuses_of_noExpiry noExpiry now

/-- The settings take these numbers, and two calls break down with them before the first of
them.  A first failure breaks down too, and leaves the breaker open without an instant until
which it is, so the next call is let through. -/
theorem brokeDown_of_large_numbers :
    let batch : BatchSettings :=
      { maxConcurrency := 2305843009213693952, timeout := 18446744073709551615 }
    let breaker : BreakerSettings := { maxFailures := 1, resetTimeout := 18446744073709551615 }
    let world : World := { tree := .root {} }
    let calls : List Call := [.ofTool "q" .null, .ofTool "r" .null]
    let opened := Breaker.fresh.fail breaker.config 0
    (BatchSettings.shape.ofValue batch.toJson).toOption.map BatchSettings.ofFull = some batch ∧
      (BreakerSettings.shape.ofValue breaker.toJson).toOption.map BreakerSettings.ofFull =
          some breaker ∧
        (world.carryOut {} 0 calls none batch.maxConcurrency).1 = .brokeDown ∧
          (world.carryOut { batch := batch.config } 0 calls none 5).1 = .brokeDown ∧
            Breaker.fresh.failBreaksDown breaker.config 0 = true ∧
              opened = ⟨.opened, 1, 0, none⟩ ∧ opened.refuses 0 = false := by
  decide +kernel

end Runbook
