import Runbook.Proofs.Breaker.Visits

namespace Runbook

/-!
# What a breaker keeps of the visits to it

A breaker keeps just what it needs of the past: in the closed state the failures in a row,
in the open one the end of the reset time, and in the half-open one the successes since it
was last half opened.  If it has kept that of the visits so far, then the next one is as
they demand, and it has kept the same of all of them.
-/

open Breaker

namespace Visit

variable {config : BreakerConfig} {name : String} {clock : Instant} {breaker : Breaker}
  {earlier : List Visit} {visit : Visit}

/-- A visit to a breaker that turns it away. -/
structure TurnedAway
    (name : String) (clock : Instant) (breaker : Breaker) (visit : Visit) : Prop where
  refuses :
    breaker.refuses clock = true
  asked :
    visit.asked = clock
  ended :
    visit.ended = clock
  runs :
    visit.runs = 0
  ending :
    visit.ending = .fault (.circuitOpen name)
  before :
    visit.before = breaker
  through :
    visit.through = breaker
  after :
    visit.after = breaker

/-- A visit to a breaker that lets it through. -/
structure Passes
    (config : BreakerConfig) (clock : Instant) (breaker : Breaker) (visit : Visit) :
    Prop where
  accepts :
    breaker.refuses clock = false
  asked :
    visit.asked = clock
  runs :
    visit.runs = 1
  before :
    visit.before = breaker
  through :
    visit.through = breaker.letThrough
  lasts :
    clock ≤ visit.ended
  reacts :
    Reacts config visit.through
      ⟨0, visit.ended, .report (Verdict.of (.finished visit.result))⟩ visit.after
  ending :
    visit.ending =
      if Verdict.of (.finished visit.result) = .failure ∧
          visit.through.failBreaksDown config visit.ended = true
      then .brokeDown
      else .finished visit.result

theorem Passes.succeeds_iff
    (passes : visit.Passes config clock breaker) :
    visit.succeeds = true ↔ Verdict.of (.finished visit.result) = .success := by
  unfold succeeds
  rw [passes.runs]
  cases visit.result with
  | ok value =>
      simp [Except.isOk, Except.toBool, Verdict.of]
  | error fault =>
      cases isEnd : fault.endsContext <;>
        simp [Except.isOk, Except.toBool, Verdict.of, isEnd]

theorem Passes.fails_iff
    (passes : visit.Passes config clock breaker) :
    visit.fails = true ↔ Verdict.of (.finished visit.result) = .failure := by
  unfold fails
  rw [passes.runs]
  cases visit.result with
  | ok value =>
      simp [Verdict.of]
  | error fault =>
      cases isEnd : fault.endsContext <;> simp [Verdict.of, isEnd]

/-- What a breaker that is neither open nor told of a success or a failure does. -/
theorem Passes.of_ignores
    (passes : visit.Passes config clock breaker)
    (notOpen : visit.through.circuit ≠ .opened)
    (isIgnored :
      visit.through.Ignores
        ⟨0, visit.ended, .report (Verdict.of (.finished visit.result))⟩) :
    visit.succeeds = false ∧ visit.fails = false := by
  have noSuccess : ¬ visit.succeeds = true := by
    intro isSuccess
    simp only [Ignores, passes.succeeds_iff.mp isSuccess] at isIgnored
    exact notOpen isIgnored
  have noFailure : ¬ visit.fails = true := by
    intro isFailure
    simp only [Ignores, passes.fails_iff.mp isFailure] at isIgnored
    exact notOpen isIgnored
  exact ⟨by simpa using noSuccess, by simpa using noFailure⟩

theorem Passes.notOpened
    (passes : visit.Passes config clock breaker) :
    visit.through.circuit ≠ .opened := by
  rw [passes.through, letThrough]
  split
  · exact Circuit.noConfusion
  · assumption

/-- A call that passes trips with a failure that is to trip. -/
theorem Passes.trips_iff
    (passes : visit.Passes config clock breaker) :
    visit.trips = true ↔
      visit.fails = true ∧ visit.through.tripsOnFailure config = true := by
  have notOpened := passes.notOpened
  have reacts := passes.reacts
  rw [passes.fails_iff]
  unfold trips
  -- Whether the circuit was opened shows in the reaction alone.
  generalize visit.after = after at reacts ⊢
  cases reacts with
  | ignores isIgnored =>
      have noFailure := (passes.of_ignores notOpened isIgnored).2
      simp [← passes.fails_iff, noFailure, notOpened]
  | probes isOpen _ _ =>
      exact (notOpened isOpen).elim
  | forgives isClosed isSuccess =>
      simp [isClosed, Signal.report.inj isSuccess]
  | countsFailure isClosed isFailure tooFew =>
      simp [isClosed, tripsOnFailure, Nat.not_le_of_lt tooFew]
  | trips isClosed isFailure isEnough =>
      simp [isClosed, trip, tripsOnFailure, Signal.report.inj isFailure, isEnough]
  | countsSuccess isHalfOpen isSuccess tooFew =>
      simp [isHalfOpen, Signal.report.inj isSuccess]
  | recovers isHalfOpen isSuccess isEnough =>
      simp [fresh, Signal.report.inj isSuccess]
  | reopens isHalfOpen isFailure =>
      simp [isHalfOpen, trip, tripsOnFailure, Signal.report.inj isFailure]

/-- A call that passes closes a half-open circuit with a success that makes them enough. -/
theorem Passes.closes_iff
    (passes : visit.Passes config clock breaker) :
    visit.closes = true ↔
      visit.succeeds = true ∧ visit.through.circuit = .halfOpen ∧
        config.halfOpenAttempts ≤ visit.through.successes + 1 := by
  have notOpened := passes.notOpened
  have reacts := passes.reacts
  rw [passes.succeeds_iff]
  unfold closes
  generalize visit.after = after at reacts ⊢
  cases reacts with
  | ignores isIgnored =>
      have noSuccess := (passes.of_ignores notOpened isIgnored).1
      simp [← passes.succeeds_iff, noSuccess]
  | probes isOpen _ _ =>
      exact (notOpened isOpen).elim
  | forgives isClosed isSuccess =>
      simp [isClosed]
  | countsFailure isClosed isFailure tooFew =>
      simp [isClosed]
  | trips isClosed isFailure isEnough =>
      simp [isClosed]
  | countsSuccess isHalfOpen isSuccess tooFew =>
      simp [isHalfOpen, Nat.not_le_of_lt tooFew]
  | recovers isHalfOpen isSuccess isEnough =>
      simp [isHalfOpen, fresh, Signal.report.inj isSuccess, isEnough]
  | reopens isHalfOpen isFailure =>
      simp [trip, Signal.report.inj isFailure]

theorem Passes.breaksDown_iff
    (passes : visit.Passes config clock breaker) :
    visit.ending = .brokeDown ↔
      visit.trips = true ∧ visit.ended.after? config.resetTimeout = none := by
  rw [passes.ending, passes.trips_iff, passes.fails_iff, failBreaksDown]
  split
  case isTrue breaksDown =>
    simpa [and_assoc] using breaksDown
  case isFalse goesOn =>
    simpa [and_assoc] using goesOn

/-- The end of a reset time that a breaker has kept has come. -/
def RanOut (breaker : Breaker) (clock : Instant) : Prop :=
  ∀ expiry, breaker.openUntil = some expiry → expiry ≤ clock

theorem RanOut.of_le
    {later : Instant}
    (ranOut : RanOut breaker clock)
    (passes : clock ≤ later) :
    RanOut breaker later :=
  fun expiry isOver => Nat.le_trans (ranOut expiry isOver) passes

theorem KeepsAway.of_le
    {trip : Visit}
    {sooner : Instant}
    (keepsAway : trip.KeepsAway config clock)
    (passes : sooner ≤ clock) :
    trip.KeepsAway config sooner := by
  obtain ⟨expiry, isOver, isEarly⟩ := keepsAway
  exact ⟨expiry, isOver, Nat.lt_of_le_of_lt passes isEarly⟩

/-- What a breaker has kept of the visits to it. -/
def Remembers
    (config : BreakerConfig) (earlier : List Visit) (clock : Instant) (breaker : Breaker) :
    Prop :=
  match breaker.circuit with
  | .closed =>
      breaker.failures = failuresInARow earlier ∧
        breaker.failures < config.maxFailures ∧
          RanOut breaker clock ∧
            (∀ trip, ¬ InForce earlier trip) ∧
              ∀ successes, SuccessesSinceProbe earlier successes →
                config.halfOpenAttempts ≤ successes
  | .halfOpen =>
      (∃ trip, InForce earlier trip ∧ ¬ trip.KeepsAway config clock) ∧
        SuccessesSinceProbe earlier breaker.successes ∧
          breaker.successes < config.halfOpenAttempts ∧ RanOut breaker clock
  | .opened =>
      ∃ trip, InForce earlier trip ∧
        ∀ later, clock ≤ later → (breaker.refuses later = true ↔ trip.KeepsAway config later)

theorem remembers_fresh
    (tolerates : 1 ≤ config.maxFailures)
    (clock : Instant) :
    Remembers config [] clock fresh := by
  refine ⟨rfl, tolerates, nofun, fun _ => inForce_nil, ?_⟩
  intro successes counted
  exact (not_successesSinceProbe_nil counted).elim

/-- What a breaker has kept does not change while time passes. -/
theorem Remembers.of_le
    {later : Instant}
    (remembers : Remembers config earlier clock breaker)
    (passes : clock ≤ later) :
    Remembers config earlier later breaker := by
  unfold Remembers at remembers ⊢
  cases circuit : breaker.circuit with
  | closed =>
      simp only [circuit] at remembers ⊢
      obtain ⟨failures, tolerates, ranOut, rest⟩ := remembers
      exact ⟨failures, tolerates, ranOut.of_le passes, rest⟩
  | halfOpen =>
      simp only [circuit] at remembers ⊢
      obtain ⟨⟨trip, inForce, isOver⟩, counted, tooFew, ranOut⟩ := remembers
      exact ⟨⟨trip, inForce, fun keepsAway => isOver (keepsAway.of_le passes)⟩, counted,
        tooFew, ranOut.of_le passes⟩
  | opened =>
      simp only [circuit] at remembers ⊢
      obtain ⟨trip, inForce, refusesIff⟩ := remembers
      exact ⟨trip, inForce, fun evenLater isLater =>
        refusesIff evenLater (Nat.le_trans passes isLater)⟩

theorem refuses_iff :
    breaker.refuses clock = true ↔
      breaker.circuit = .opened ∧ ∃ expiry, breaker.openUntil = some expiry ∧ clock < expiry := by
  unfold refuses
  split
  · rename_i isOpen isExpiry
    simp [isOpen, isExpiry]
  · rename_i noMatch
    constructor
    · exact fun isFalse => absurd isFalse Bool.false_ne_true
    · rintro ⟨isOpen, expiry, isExpiry, _⟩
      exact (noMatch expiry isOpen isExpiry).elim

theorem TurnedAway.lawful
    (turnedAway : visit.TurnedAway name clock breaker)
    (remembers : Remembers config earlier clock breaker) :
    Lawful config name earlier visit := by
  obtain ⟨refuses, asked, ended, runs, ending, before, through, after⟩ := turnedAway
  obtain ⟨isOpen, -⟩ := refuses_iff.mp refuses
  simp only [Remembers, isOpen] at remembers
  obtain ⟨trip, inForce, refusesIff⟩ := remembers
  have keepsAway := (refusesIff clock (Nat.le_refl clock)).mp refuses
  refine ⟨?_, ?_, ?_, ?_, ?_, ?_, ?_⟩
  · exact ⟨fun _ => ⟨trip, inForce, asked ▸ keepsAway⟩, fun _ => runs⟩
  · exact fun _ => ⟨ending, after.trans before.symm⟩
  · exact fun isRun => (isRun runs).elim
  · exact fun isRun => (isRun runs).elim
  · simp [Visit.trips, Visit.fails, through, isOpen, runs]
  · simp [Visit.closes, Visit.succeeds, after, isOpen, runs]
  · simp [Visit.trips, through, isOpen, ending, Ending.fault]

theorem TurnedAway.remembers
    (turnedAway : visit.TurnedAway name clock breaker)
    (remembers : Remembers config earlier clock breaker) :
    Remembers config (earlier ++ [visit]) visit.ended visit.after := by
  obtain ⟨isOpen, _⟩ := refuses_iff.mp turnedAway.refuses
  simp only [Remembers, turnedAway.after, isOpen] at remembers ⊢
  rw [turnedAway.ended]
  obtain ⟨trip, inForce, refusesIff⟩ := remembers
  have noTrip : visit.trips = false := by
    simp [Visit.trips, turnedAway.through, isOpen]
  have noClosing : visit.closes = false := by
    simp [Visit.closes, turnedAway.after, isOpen]
  refine ⟨trip, inForce_concat.mpr ?_, refusesIff⟩
  rw [if_neg (by simp [noTrip])]
  exact ⟨noClosing, inForce⟩

/-- A breaker that lets a call through in the closed state has kept the failures in a
row. -/
structure FoundClosed
    (config : BreakerConfig) (earlier : List Visit) (visit : Visit) : Prop where
  isClosed :
    visit.through.circuit = .closed
  noProbe :
    visit.probes = false
  failures :
    visit.through.failures = failuresInARow earlier
  tolerates :
    visit.through.failures < config.maxFailures
  ranOut :
    RanOut visit.through visit.asked
  noTrip :
    ∀ trip, ¬ InForce earlier trip
  enough :
    ∀ successes, SuccessesSinceProbe earlier successes →
      config.halfOpenAttempts ≤ successes

/-- A breaker that lets a call through in the half-open state has kept the successes since
it became so, which may be just now. -/
structure FoundHalfOpen
    (config : BreakerConfig) (earlier : List Visit) (visit : Visit) : Prop where
  isHalfOpen :
    visit.through.circuit = .halfOpen
  trip :
    ∃ trip, InForce earlier trip ∧ ¬ trip.KeepsAway config visit.asked
  counted :
    SuccessesSinceProbe (earlier ++ [visit])
      (visit.through.successes + visit.succeeds.toNat)
  tooFew :
    visit.through.successes < config.halfOpenAttempts
  ranOut :
    RanOut visit.through visit.asked

/-- A call that passes finds the circuit closed or half open. -/
theorem Passes.found
    (passes : visit.Passes config clock breaker)
    (needsProbes : 1 ≤ config.halfOpenAttempts)
    (remembers : Remembers config earlier clock breaker) :
    FoundClosed config earlier visit ∨ FoundHalfOpen config earlier visit := by
  have through := passes.through
  cases circuit : breaker.circuit with
  | closed =>
      have sameBreaker : visit.through = breaker := by
        simp [through, letThrough, circuit]
      have isClosed : visit.through.circuit = .closed := by
        rw [sameBreaker, circuit]
      rw [← sameBreaker] at remembers
      simp only [Remembers, isClosed] at remembers
      obtain ⟨failures, tolerates, ranOut, noTrip, enough⟩ := remembers
      refine Or.inl ⟨isClosed, ?_, failures, tolerates, passes.asked ▸ ranOut, noTrip, enough⟩
      simp [probes, passes.before, circuit]
  | halfOpen =>
      have sameBreaker : visit.through = breaker := by
        simp [through, letThrough, circuit]
      have isHalfOpen : visit.through.circuit = .halfOpen := by
        rw [sameBreaker, circuit]
      rw [← sameBreaker] at remembers
      simp only [Remembers, isHalfOpen] at remembers
      obtain ⟨trip, counted, tooFew, ranOut⟩ := remembers
      refine Or.inr ⟨isHalfOpen, passes.asked ▸ trip, ?_, tooFew, passes.asked ▸ ranOut⟩
      have noProbe : visit.probes = false := by
        simp [probes, passes.before, circuit]
      rw [successesSinceProbe_concat, if_neg (by simp [noProbe])]
      exact ⟨_, counted, rfl⟩
  | opened =>
      have isProbing :
          visit.through = { breaker with circuit := .halfOpen, successes := 0 } := by
        simp [through, letThrough, circuit]
      have remembered := remembers
      simp only [Remembers, circuit] at remembered
      obtain ⟨trip, inForce, refusesIff⟩ := remembered
      have isProbe : visit.probes = true := by
        simp [probes, passes.before, circuit, isProbing]
      have accepts : ¬ breaker.refuses clock = true := by
        rw [passes.accepts]
        exact Bool.false_ne_true
      rw [refusesIff clock (Nat.le_refl clock)] at accepts
      refine Or.inr ⟨by rw [isProbing], ⟨trip, inForce, passes.asked ▸ accepts⟩, ?_, ?_, ?_⟩
      · rw [successesSinceProbe_concat, if_pos isProbe, isProbing, Nat.zero_add]
      · rw [isProbing]
        exact needsProbes
      · rw [isProbing, passes.asked]
        intro expiry isOver
        by_contra isEarly
        have refuses := refuses_iff.mpr ⟨circuit, expiry, isOver, Nat.lt_of_not_le isEarly⟩
        rw [passes.accepts] at refuses
        cases refuses

theorem Passes.isRun
    (passes : visit.Passes config clock breaker) :
    visit.runs ≠ 0 := by
  rw [passes.runs]
  exact Nat.one_ne_zero

theorem Passes.passage
    (passes : visit.Passes config clock breaker) :
    visit.runs = 1 ∧
      (visit.ending ≠ .brokeDown → visit.ending = .finished visit.result) := by
  refine ⟨passes.runs, fun noBreakdown => ?_⟩
  have ending := passes.ending
  split at ending
  · exact (noBreakdown ending).elim
  · exact ending

/-- A failure that does not close the circuit makes the row of failures longer. -/
theorem Passes.failuresInARow_of_fails
    (passes : visit.Passes config clock breaker)
    (fails : visit.fails = true) :
    failuresInARow (earlier ++ [visit]) = failuresInARow earlier + 1 := by
  have noSuccess : visit.succeeds = false := by
    by_contra isSuccess
    have isBoth := passes.succeeds_iff.mp (by simpa using isSuccess)
    rw [passes.fails_iff.mp fails] at isBoth
    cases isBoth
  have noClosing : visit.closes = false := by
    by_contra isClosing
    have isSuccess := (passes.closes_iff.mp (by simpa using isClosing)).1
    rw [noSuccess] at isSuccess
    cases isSuccess
  rw [failuresInARow_concat, noSuccess, noClosing, fails]
  rfl

theorem Passes.lawful_of_closed
    (passes : visit.Passes config clock breaker)
    (found : FoundClosed config earlier visit) :
    Lawful config name earlier visit := by
  obtain ⟨isClosed, noProbe, failures, tolerates, -, noTrip, enough⟩ := found
  have isRun := passes.isRun
  refine ⟨?_, fun noRun => (isRun noRun).elim, ?_, ?_, ?_, ?_, passes.breaksDown_iff⟩
  · refine ⟨fun noRun => (isRun noRun).elim, ?_⟩
    rintro ⟨trip, inForce, _⟩
    exact (noTrip trip inForce).elim
  · exact fun _ => passes.passage
  · intro _
    rw [isClosed]
    refine ⟨nofun, ?_⟩
    rintro ⟨trip, inForce⟩
    exact (noTrip trip inForce).elim
  · rw [passes.trips_iff]
    refine and_congr_right fun fails => ?_
    rw [passes.failuresInARow_of_fails fails, ← failures]
    simp only [tripsOnFailure, isClosed, decide_eq_true_eq, reduceCtorEq, false_or]
    omega
  · rw [passes.closes_iff, isClosed]
    refine and_congr_right fun succeeds => ?_
    refine ⟨fun isHalfOpen => (nomatch isHalfOpen.1), ?_⟩
    rw [successesSinceProbe_concat, if_neg (by simp [noProbe])]
    rintro ⟨before, counted, isCount⟩
    -- The successes since the last probe were enough before, so they pass the number now.
    have isEnough := enough before counted
    simp only [succeeds, Bool.toNat_true] at isCount
    omega

theorem Passes.lawful_of_halfOpen
    (passes : visit.Passes config clock breaker)
    (found : FoundHalfOpen config earlier visit) :
    Lawful config name earlier visit := by
  obtain ⟨isHalfOpen, ⟨trip, inForce, isOver⟩, counted, tooFew, -⟩ := found
  have isRun := passes.isRun
  refine ⟨?_, fun noRun => (isRun noRun).elim, ?_, ?_, ?_, ?_, passes.breaksDown_iff⟩
  · refine ⟨fun noRun => (isRun noRun).elim, ?_⟩
    rintro ⟨other, isOther, isEarly⟩
    rw [isOther.eq inForce] at isEarly
    exact (isOver isEarly).elim
  · exact fun _ => passes.passage
  · exact fun _ => ⟨fun _ => ⟨trip, inForce⟩, fun _ => isHalfOpen⟩
  · rw [passes.trips_iff]
    simp [tripsOnFailure, isHalfOpen]
  · rw [passes.closes_iff]
    refine and_congr_right fun succeeds => ?_
    rw [succeeds, Bool.toNat_true] at counted
    constructor
    · rintro ⟨_, isEnough⟩
      rw [show config.halfOpenAttempts = visit.through.successes + 1 by omega]
      exact counted
    · intro isCount
      exact ⟨isHalfOpen, Nat.le_of_eq (isCount.eq counted)⟩

/-- A call that trips is in force from then on. -/
theorem remembers_of_trips
    {tripped : Breaker}
    (isTripped : visit.after = trip config visit.ended tripped)
    (ranOut : RanOut tripped visit.ended)
    (trips : visit.trips = true) :
    Remembers config (earlier ++ [visit]) visit.ended visit.after := by
  rw [isTripped]
  refine ⟨visit, inForce_concat.mpr (by rw [if_pos trips]), fun later isLater => ?_⟩
  rw [refuses_iff]
  unfold KeepsAway trip
  cases isOver : visit.ended.after? config.resetTimeout with
  | some expiry =>
      simp
  | none =>
      -- An end of an earlier reset time has been kept, but that has come.
      simp only [Option.none_or, reduceCtorEq, false_and, exists_false, iff_false, true_and,
        not_exists, not_and, Nat.not_lt]
      exact fun expiry isKept => (ranOut.of_le isLater) expiry isKept

theorem Passes.remembers_of_closed
    (passes : visit.Passes config clock breaker)
    (found : FoundClosed config earlier visit) :
    Remembers config (earlier ++ [visit]) visit.ended visit.after := by
  obtain ⟨isClosed, noProbe, failures, tolerates, ranOut, noTrip, enough⟩ := found
  replace ranOut : RanOut visit.through visit.ended :=
    ranOut.of_le (passes.asked ▸ passes.lasts)
  -- Unless the call trips, only the failures in a row can have changed.
  have keeps :
      visit.trips = false →
      (∀ trip, ¬ InForce (earlier ++ [visit]) trip) ∧
        ∀ successes, SuccessesSinceProbe (earlier ++ [visit]) successes →
          config.halfOpenAttempts ≤ successes := by
    intro isCalm
    refine ⟨fun trip inForce => ?_, fun successes counted => ?_⟩
    · rw [inForce_concat, if_neg (by simp [isCalm])] at inForce
      exact noTrip trip inForce.2
    · rw [successesSinceProbe_concat, if_neg (by simp [noProbe])] at counted
      obtain ⟨before, countedBefore, rfl⟩ := counted
      exact Nat.le_trans (enough before countedBefore) (Nat.le_add_right _ _)
  have row := failuresInARow_concat earlier visit
  have trips_iff := passes.trips_iff
  have closes_iff := passes.closes_iff
  have reacts := passes.reacts
  generalize isAfter : visit.after = after at reacts ⊢
  cases reacts with
  | ignores isIgnored =>
      obtain ⟨noSuccess, noFailure⟩ := passes.of_ignores passes.notOpened isIgnored
      simp only [noFailure, noSuccess, Bool.false_eq_true, false_and, iff_false,
        Bool.not_eq_true] at trips_iff closes_iff
      simp only [Remembers, isClosed]
      refine ⟨?_, tolerates, ranOut, keeps trips_iff⟩
      rw [row, noSuccess, closes_iff, noFailure]
      exact failures
  | forgives _ isSuccess =>
      have succeeds := passes.succeeds_iff.mpr (Signal.report.inj isSuccess)
      have isCalm : visit.trips = false := by
        simp [Visit.trips, isAfter, isClosed]
      simp only [Remembers, isClosed]
      refine ⟨?_, Nat.zero_lt_of_lt tolerates, ranOut, keeps isCalm⟩
      rw [row, succeeds]
      rfl
  | countsFailure _ isFailure tooFew =>
      have fails := passes.fails_iff.mpr (Signal.report.inj isFailure)
      have isCalm : visit.trips = false := by
        simp [Visit.trips, isAfter, isClosed]
      simp only [Remembers, isClosed]
      refine ⟨?_, tooFew, ranOut, keeps isCalm⟩
      rw [passes.failuresInARow_of_fails fails, failures]
  | trips _ isFailure isEnough =>
      rw [← isAfter]
      refine remembers_of_trips isAfter ranOut (trips_iff.mpr ⟨?_, ?_⟩)
      · exact passes.fails_iff.mpr (Signal.report.inj isFailure)
      · simp [tripsOnFailure, isClosed, isEnough]
  | _ =>
      simp_all

theorem Passes.remembers_of_halfOpen
    (passes : visit.Passes config clock breaker)
    (tolerates : 1 ≤ config.maxFailures)
    (found : FoundHalfOpen config earlier visit) :
    Remembers config (earlier ++ [visit]) visit.ended visit.after := by
  obtain ⟨isHalfOpen, ⟨trip, inForce, isOver⟩, counted, tooFew, ranOut⟩ := found
  have lasts : visit.asked ≤ visit.ended := passes.asked ▸ passes.lasts
  replace ranOut : RanOut visit.through visit.ended := ranOut.of_le lasts
  -- Unless the call trips or closes, the same trip stays in force.
  have keeps :
      visit.trips = false →
      visit.closes = false →
      ∃ trip, InForce (earlier ++ [visit]) trip ∧ ¬ trip.KeepsAway config visit.ended := by
    intro isCalm noClosing
    refine ⟨trip, inForce_concat.mpr ?_, fun keepsAway => isOver (keepsAway.of_le lasts)⟩
    rw [if_neg (by simp [isCalm])]
    exact ⟨noClosing, inForce⟩
  have reacts := passes.reacts
  generalize isAfter : visit.after = after at reacts ⊢
  cases reacts with
  | ignores isIgnored =>
      obtain ⟨noSuccess, _⟩ := passes.of_ignores passes.notOpened isIgnored
      have isCalm : visit.trips = false := by
        simp [Visit.trips, isAfter, isHalfOpen]
      have noClosing : visit.closes = false := by
        simp [Visit.closes, isAfter, isHalfOpen]
      rw [noSuccess] at counted
      simp only [Remembers, isHalfOpen]
      exact ⟨keeps isCalm noClosing, counted, tooFew, ranOut⟩
  | countsSuccess _ isSuccess stillTooFew =>
      have succeeds := passes.succeeds_iff.mpr (Signal.report.inj isSuccess)
      have isCalm : visit.trips = false := by
        simp [Visit.trips, isAfter, isHalfOpen]
      have noClosing : visit.closes = false := by
        simp [Visit.closes, isAfter, isHalfOpen]
      rw [succeeds] at counted
      simp only [Remembers, isHalfOpen]
      exact ⟨keeps isCalm noClosing, counted, stillTooFew, ranOut⟩
  | recovers _ isSuccess isEnough =>
      have succeeds := passes.succeeds_iff.mpr (Signal.report.inj isSuccess)
      have closes := passes.closes_iff.mpr ⟨succeeds, isHalfOpen, isEnough⟩
      have isCalm : visit.trips = false := by
        simp [Visit.trips, isAfter, fresh]
      refine ⟨?_, tolerates, nofun, ?_, ?_⟩
      · rw [failuresInARow_concat, succeeds]
        rfl
      · intro other isOther
        rw [inForce_concat, if_neg (by simp [isCalm]), closes] at isOther
        cases isOther.1
      · intro successes isCount
        rw [succeeds] at counted
        rw [isCount.eq counted]
        exact isEnough
  | reopens _ isFailure =>
      rw [← isAfter]
      refine remembers_of_trips isAfter ranOut (passes.trips_iff.mpr ⟨?_, ?_⟩)
      · exact passes.fails_iff.mpr (Signal.report.inj isFailure)
      · simp [tripsOnFailure, isHalfOpen]
  | _ =>
      simp_all

end Visit

end Runbook
