import Mathlib.Algebra.Group.Nat.Defs
import Mathlib.Data.List.Induction
import Runbook.Proofs.Breaker.Events

namespace Runbook

/-!
# The counters of a breaker

Outside of the closed state the failures of a breaker stand at the number that opened it,
so they are not counted any further, and successes are counted in the half-open state only.
Both counters stay below their thresholds, where a threshold of zero counts as one.
-/

namespace Breaker

variable {config : BreakerConfig} {breaker next : Breaker} {event : Event}
  {events : List Event}

/-- What the fields of a breaker are in each state of its circuit. -/
def WellKept (config : BreakerConfig) (breaker : Breaker) : Prop :=
  match breaker.circuit with
  | .closed =>
      breaker.failures < max config.maxFailures 1 ∧
        breaker.successes = 0 ∧
        breaker.openUntil = none
  | .halfOpen =>
      breaker.failures = max config.maxFailures 1 ∧
        breaker.successes < max config.halfOpenAttempts 1 ∧
        breaker.openUntil.isSome = true
  | .opened =>
      breaker.failures = max config.maxFailures 1 ∧
        breaker.successes = 0 ∧
        breaker.openUntil.isSome = true

theorem wellKept_fresh :
    fresh.WellKept config := by
  refine ⟨?_, rfl, rfl⟩
  exact Nat.lt_of_lt_of_le Nat.one_pos (Nat.le_max_right _ _)

theorem wellKept_trip
    {now : Instant}
    (fits : (now.after? config.resetTimeout).isSome = true)
    (reached : breaker.failures = max config.maxFailures 1) :
    (trip config now breaker).WellKept config := by
  simp [WellKept, trip, fits, reached]

/-- A breaker stays well kept as long as the instants of its failures leave room for the
reset time. -/
theorem WellKept.of_reacts
    (wellKept : breaker.WellKept config)
    (fits : (event.now.after? config.resetTimeout).isSome = true)
    (reacts : Reacts config breaker event next) :
    next.WellKept config := by
  cases reacts with
  | ignores _ =>
      exact wellKept
  | probes isOpen _ _ =>
      simp only [WellKept, isOpen] at wellKept ⊢
      exact ⟨wellKept.1, by omega, wellKept.2.2⟩
  | forgives isClosed _ =>
      simp only [WellKept, isClosed] at wellKept ⊢
      exact ⟨by omega, wellKept.2⟩
  | countsFailure isClosed _ tooFew =>
      simp only [WellKept, isClosed] at wellKept ⊢
      exact ⟨by omega, wellKept.2⟩
  | trips isClosed _ isEnough =>
      simp only [WellKept, isClosed] at wellKept
      exact wellKept_trip fits (show breaker.failures + 1 = _ by omega)
  | countsSuccess isHalfOpen _ tooFew =>
      simp only [WellKept, isHalfOpen] at wellKept ⊢
      exact ⟨wellKept.1, by omega, wellKept.2.2⟩
  | recovers _ _ _ =>
      exact wellKept_fresh
  | reopens isHalfOpen _ =>
      simp only [WellKept, isHalfOpen] at wellKept
      exact wellKept_trip fits wellKept.1

theorem wellKept_after
    (fits : ∀ event ∈ events, (event.now.after? config.resetTimeout).isSome = true) :
    (after config events).WellKept config := by
  induction events using List.reverseRecOn with
  | nil =>
      exact wellKept_fresh
  | append_singleton earlier event inductionHypothesis =>
      rw [after_concat]
      have keptEarlier := inductionHypothesis fun other member =>
        fits other (List.mem_append_left _ member)
      exact keptEarlier.of_reacts (fits event (by simp)) (reacts_react config _ event)

/-- A breaker counts as it should, and goes on to do so with the next event. -/
structure Sound (config : BreakerConfig) (breaker : Breaker) : Prop where
  wellKept :
    breaker.WellKept config
  /-- The counters have 32 bits. -/
  fits :
    breaker.failures < 2 ^ 32 ∧ breaker.successes < 2 ^ 32
  /-- So have they when they are counted up, before they are compared with anything. -/
  countsOn :
    (breaker.circuit = .closed → breaker.failures + 1 < 2 ^ 32) ∧
      (breaker.circuit = .halfOpen → breaker.successes + 1 < 2 ^ 32)
  turns :
    ∀ event,
      (breaker.react config event).circuit = breaker.circuit ∨
        Circuit.Turns breaker.circuit (breaker.react config event).circuit
  leavesOpen :
    breaker.circuit = .opened →
    ∀ event,
      (breaker.react config event).circuit ≠ .opened →
      event.signal = .request ∧
        ∃ expiry, breaker.openUntil = some expiry ∧ expiry ≤ event.now

/-- A breaker counts as it should after any events of any calls, with thresholds of 32 bits
and a reset time that ends at some instant whenever it is asked for. -/
theorem sound_after
    (maxFits : config.maxFailures < 2 ^ 32)
    (attemptsFit : config.halfOpenAttempts < 2 ^ 32)
    (resets : ∀ event ∈ events, (event.now.after? config.resetTimeout).isSome = true) :
    (after config events).Sound config := by
  have wellKept := wellKept_after resets
  generalize after config events = breaker at wellKept
  refine ⟨wellKept, ?_, ?_, fun event => turns_of_reacts (reacts_react config _ event), ?_⟩
  · cases circuit : breaker.circuit with
    | _ =>
        simp only [WellKept, circuit] at wellKept
        omega
  · refine ⟨?_, ?_⟩
    · intro circuit
      simp only [WellKept, circuit] at wellKept
      omega
    · intro circuit
      simp only [WellKept, circuit] at wellKept
      omega
  · intro isOpen event leaves
    rcases (reacts_react config breaker event).of_opened isOpen with
      isSame | ⟨isRequest, passes, _⟩
    · rw [isSame] at leaves
      exact (leaves isOpen).elim
    · simp only [WellKept, isOpen] at wellKept
      obtain ⟨expiry, isExpiry⟩ := Option.isSome_iff_exists.mp wellKept.2.2
      refine ⟨isRequest, expiry, isExpiry, ?_⟩
      simpa [refuses, isOpen, isExpiry] using passes

/-- With thresholds of zero one failure of two calls side by side opens the circuit, and a
third call at the end of the reset time finds it half open. -/
theorem sound_after_zero_thresholds :
    (after ⟨0, 5, 0⟩
      [⟨0, 0, .request⟩, ⟨1, 0, .request⟩, ⟨0, 1, .report .failure⟩,
        ⟨2, 6, .request⟩]).Sound ⟨0, 5, 0⟩ ∧
      after ⟨0, 5, 0⟩
        [⟨0, 0, .request⟩, ⟨1, 0, .request⟩, ⟨0, 1, .report .failure⟩,
          ⟨2, 6, .request⟩] = ⟨.halfOpen, 1, 0, some 6⟩ := by
  refine ⟨sound_after (by decide) (by decide) ?_, by decide⟩
  decide

end Breaker

end Runbook
