import Mathlib.Data.List.DropRight
import Mathlib.Data.List.Induction
import Runbook.Proofs.Breaker.Gates
import Runbook.Proofs.History

namespace Runbook

/-!
# Calls that come to a breaker one after the other

A visit is what there is to see of one such call: when it came and went, what came of it,
and how the breaker stood.  What comes of a visit follows from the visits before it, with
no need to look at the counters: from the last trip that is still in force, from the
failures in a row, and from the successes since the circuit was last half opened.
-/

open Breaker

/-- One call that came to a breaker, with nobody beside it. -/
structure Visit where
  /-- When the breaker was asked. -/
  asked : Instant
  /-- When the call was over. -/
  ended : Instant
  /-- What the work of the call comes to where it is done. -/
  result : Except Fault String
  /-- How often the work was done. -/
  runs : Nat
  /-- What the caller got. -/
  ending : Ending String
  /-- The breaker when the call came. -/
  before : Breaker
  /-- The breaker once it had been asked. -/
  through : Breaker
  /-- The breaker when the call was over. -/
  after : Breaker
  deriving DecidableEq

namespace Visit

/-- The work was done and had a value. -/
def succeeds (visit : Visit) : Bool :=
  visit.runs == 1 && visit.result.isOk

/-- The work was done and had a fault, other than the end of a context. -/
def fails (visit : Visit) : Bool :=
  visit.runs == 1 &&
    match visit.result with
    | .ok _ => false
    | .error fault => !fault.endsContext

/-- The call opened the circuit. -/
def trips (visit : Visit) : Bool :=
  visit.through.circuit != .opened && visit.after.circuit == .opened

/-- The call closed the circuit. -/
def closes (visit : Visit) : Bool :=
  visit.through.circuit != .closed && visit.after.circuit == .closed

/-- The call came to an open circuit and made it half open. -/
def probes (visit : Visit) : Bool :=
  visit.before.circuit == .opened && visit.through.circuit == .halfOpen

/-- A trip was the last one, and the circuit has not been closed since. -/
def InForce (visits : List Visit) (trip : Visit) : Prop :=
  ∃ first rest,
    visits = first ++ trip :: rest ∧
      trip.trips = true ∧
        ∀ visit ∈ rest, visit.trips = false ∧ visit.closes = false

/-- A trip keeps calls away until its reset time is over.  If that time ends at no instant, it
keeps nobody away. -/
def KeepsAway (config : BreakerConfig) (trip : Visit) (now : Instant) : Prop :=
  ∃ expiry, trip.ended.after? config.resetTimeout = some expiry ∧ now < expiry

/-- The failures since the last success or closing, whichever is later. -/
def failuresInARow (visits : List Visit) : Nat :=
  (visits.rtakeWhile fun visit => !visit.succeeds && !visit.closes).countP fails

/-- Since a circuit was last half opened there have been so many successes. -/
def SuccessesSinceProbe (visits : List Visit) (successes : Nat) : Prop :=
  ∃ first probe rest,
    visits = first ++ probe :: rest ∧
      probe.probes = true ∧
        (∀ visit ∈ rest, visit.probes = false) ∧
          (probe :: rest).countP succeeds = successes

/-- What comes of a visit, by the visits before it. -/
structure Lawful
    (config : BreakerConfig) (name : String) (earlier : List Visit) (visit : Visit) :
    Prop where
  /-- The call is turned away as long as a trip is in force and its reset time runs. -/
  turnedAway :
    visit.runs = 0 ↔
      ∃ trip, InForce earlier trip ∧ trip.KeepsAway config visit.asked
  refusal :
    visit.runs = 0 →
    visit.ending = .fault (.circuitOpen name) ∧ visit.after = visit.before
  passage :
    visit.runs ≠ 0 →
    visit.runs = 1 ∧
      (visit.ending ≠ .brokeDown → visit.ending = .finished visit.result)
  /-- A call that passes finds the circuit half open while a trip is in force. -/
  halfOpen :
    visit.runs ≠ 0 →
    (visit.through.circuit = .halfOpen ↔ ∃ trip, InForce earlier trip)
  trips :
    visit.trips = true ↔
      visit.fails = true ∧
        (visit.through.circuit = .halfOpen ∨
          failuresInARow (earlier ++ [visit]) = config.maxFailures)
  closes :
    visit.closes = true ↔
      visit.succeeds = true ∧
        SuccessesSinceProbe (earlier ++ [visit]) config.halfOpenAttempts
  /-- A call breaks down only where it trips and the reset time ends at no instant. -/
  breaksDown :
    visit.ending = .brokeDown ↔
      visit.trips = true ∧ visit.ended.after? config.resetTimeout = none

variable {config : BreakerConfig} {name : String} {earlier visits : List Visit}
  {visit trip : Visit} {clock : Instant} {breaker : Breaker}

theorem inForce_nil :
    ¬ InForce [] trip := by
  rintro ⟨first, rest, isNil, _⟩
  simp at isNil

/-- A trip comes into force at once and stays so until the next trip or closing. -/
theorem inForce_concat :
    InForce (visits ++ [visit]) trip ↔
      if visit.trips then trip = visit
      else visit.closes = false ∧ InForce visits trip := by
  constructor
  · rintro ⟨first, rest, isSplit, isTrip, undisturbed⟩
    rcases History.split_concat isSplit with ⟨between, rfl, rfl⟩ | ⟨_, rfl, _⟩
    · obtain ⟨noTrip, noClosing⟩ := undisturbed visit (by simp)
      rw [if_neg (by simp [noTrip])]
      exact ⟨noClosing, first, between, rfl, isTrip,
        fun other member => undisturbed other (by simp [member])⟩
    · rw [if_pos isTrip]
  · intro holds
    split at holds
    case isTrue isTrip =>
      subst holds
      exact ⟨visits, [], rfl, isTrip, by simp⟩
    case isFalse noTrip =>
      obtain ⟨noClosing, first, rest, rfl, isTrip, undisturbed⟩ := holds
      refine ⟨first, rest ++ [visit], by simp, isTrip, ?_⟩
      intro other member
      rcases List.mem_append.mp member with isEarlier | isLast
      · exact undisturbed other isEarlier
      · rw [List.mem_singleton.mp isLast]
        exact ⟨by simpa using noTrip, noClosing⟩

theorem InForce.eq
    {other : Visit}
    (inForce : InForce visits trip)
    (isOther : InForce visits other) :
    trip = other := by
  induction visits using List.reverseRecOn with
  | nil =>
      exact (inForce_nil inForce).elim
  | append_singleton visits last inductionHypothesis =>
      rw [inForce_concat] at inForce isOther
      split at inForce
      case isTrue isTrip =>
        rw [if_pos isTrip] at isOther
        rw [inForce, isOther]
      case isFalse noTrip =>
        rw [if_neg noTrip] at isOther
        exact inductionHypothesis inForce.2 isOther.2

theorem not_successesSinceProbe_nil
    {successes : Nat} :
    ¬ SuccessesSinceProbe [] successes := by
  rintro ⟨first, probe, rest, isNil, _⟩
  simp at isNil

/-- A probe begins a new count of successes, and any other call goes on with it. -/
theorem successesSinceProbe_concat
    {successes : Nat} :
    SuccessesSinceProbe (visits ++ [visit]) successes ↔
      if visit.probes then successes = visit.succeeds.toNat
      else ∃ before, SuccessesSinceProbe visits before ∧
        successes = before + visit.succeeds.toNat := by
  have countP_single :
      [visit].countP succeeds = visit.succeeds.toNat := by
    cases isSuccess : visit.succeeds <;> simp [isSuccess]
  constructor
  · rintro ⟨first, probe, rest, isSplit, isProbe, noOther, isCount⟩
    rcases History.split_concat isSplit with ⟨between, rfl, rfl⟩ | ⟨_, rfl, rfl⟩
    · rw [if_neg (by simp [noOther visit (by simp)])]
      refine ⟨_, ⟨first, probe, between, rfl, isProbe, ?_, rfl⟩, ?_⟩
      · exact fun other member => noOther other (by simp [member])
      · rw [← isCount, ← List.cons_append, List.countP_append, countP_single]
    · rw [if_pos isProbe, ← isCount, countP_single]
  · intro holds
    split at holds
    case isTrue isProbe =>
      exact ⟨visits, visit, [], rfl, isProbe, by simp, by rw [countP_single, holds]⟩
    case isFalse noProbe =>
      obtain ⟨_, ⟨first, probe, rest, rfl, isProbe, noOther, rfl⟩, rfl⟩ := holds
      refine ⟨first, probe, rest ++ [visit], by simp, isProbe, ?_, ?_⟩
      · intro other member
        rcases List.mem_append.mp member with isEarlier | isLast
        · exact noOther other isEarlier
        · rw [List.mem_singleton.mp isLast]
          simpa using noProbe
      · rw [← List.cons_append, List.countP_append, countP_single]

theorem SuccessesSinceProbe.eq
    {successes other : Nat}
    (counted : SuccessesSinceProbe visits successes)
    (isOther : SuccessesSinceProbe visits other) :
    successes = other := by
  induction visits using List.reverseRecOn generalizing successes other with
  | nil =>
      exact (not_successesSinceProbe_nil counted).elim
  | append_singleton visits last inductionHypothesis =>
      rw [successesSinceProbe_concat] at counted isOther
      split at counted
      case isTrue isProbe =>
        rw [if_pos isProbe] at isOther
        rw [counted, isOther]
      case isFalse noProbe =>
        rw [if_neg noProbe] at isOther
        obtain ⟨before, countedBefore, rfl⟩ := counted
        obtain ⟨otherBefore, isOtherBefore, rfl⟩ := isOther
        rw [inductionHypothesis countedBefore isOtherBefore]

/-- A success or a closing ends a row of failures, and a failure makes it longer. -/
theorem failuresInARow_concat
    (visits : List Visit)
    (visit : Visit) :
    failuresInARow (visits ++ [visit]) =
      if visit.succeeds || visit.closes then 0
      else failuresInARow visits + visit.fails.toNat := by
  unfold failuresInARow
  rw [List.rtakeWhile_concat]
  rw [← Bool.not_or]
  cases visit.succeeds || visit.closes with
  | true =>
      rfl
  | false =>
      cases isFailure : visit.fails <;> simp [isFailure]

end Visit

end Runbook
