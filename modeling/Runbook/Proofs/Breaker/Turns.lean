import Runbook.Proofs.Breaker.Memory

namespace Runbook

/-!
# A breaker as a function of its history

Calls come to the breaker of a name one after the other, each with work that takes a time
and has a result, and time passes between them.  Whatever the turns are, each visit is as
the visits before it demand.
-/

open Breaker

namespace Rehearsal

/-- What happens to a breaker that one call after the other comes to. -/
inductive Turn where
  /-- Time passes on the clock of the breakers. -/
  | pause (time : Duration)
  /-- A call comes whose work takes a time and has a result. -/
  | call (lasts : Duration) (result : Except Fault String)

/-- Let time pass on the clock of the breakers. -/
def World.passTime (time : Duration) (world : World) : World :=
  { world with breakerClock := world.breakerClock + time }

/-- Work that takes a time and has a result; each time it is done is counted. -/
def work (lasts : Duration) (result : Except Fault String) (state : Counted) :
    Ending String × Counted :=
  (.finished result, (state.1.passTime lasts, state.2 + 1))

/-- A call comes to the breaker of a name. -/
def visit (name : String) (lasts : Duration) (result : Except Fault String)
    (state : Counted) : Visit × Counted :=
  let (ending, later) := (countedGate name).execute (work lasts result) state
  ({ asked := state.1.breakerClock
     ended := later.1.breakerClock
     result := result
     runs := later.2 - state.2
     ending := ending
     before := state.1.roster.get name
     through := ((countedGate name).ask state).2.1.roster.get name
     after := later.1.roster.get name },
    later)

/-- The visits of turns, one after the other. -/
def visits (name : String) : List Turn → Counted → List Visit
  | [], _ => []
  | .pause time :: rest, state => visits name rest (state.1.passTime time, state.2)
  | .call lasts result :: rest, state =>
      (visit name lasts result state).1 :: visits name rest (visit name lasts result state).2

variable {name : String} {state : Counted}

/-- What there is to see of work behind a gate that lets it pass. -/
theorem execute_work_of_accepts
    (lasts : Duration)
    (result : Except Fault String)
    (accepts : (state.1.roster.get name).refuses state.1.breakerClock = false) :
    ∃ ending later,
      (countedGate name).execute (work lasts result) state = (ending, later) ∧
        later.1.breakerClock = state.1.breakerClock + lasts ∧
          later.2 = state.2 + 1 ∧
            later.1.roster.config = state.1.roster.config ∧
              later.1.roster.get name =
                (state.1.roster.get name).letThrough.react state.1.roster.config
                  ⟨0, state.1.breakerClock + lasts,
                    .report (Verdict.of (.finished result : Ending String))⟩ ∧
                ending =
                  if Verdict.of (.finished result : Ending String) = .failure ∧
                      (state.1.roster.get name).letThrough.failBreaksDown
                        state.1.roster.config (state.1.breakerClock + lasts) = true
                  then .brokeDown
                  else .finished result := by
  have guards := Gate.guards_counted name
  have passes : ((countedGate name).ask state).1 = none := by
    rw [guards.ask_fst, if_neg (by simp [accepts])]
  have isThrough :
      ((countedGate name).ask state).2.1.roster.get name =
        (state.1.roster.get name).letThrough := by
    rw [guards.get_ask state 0]
    simp [react, accepts]
  have sameConfig :
      ((countedGate name).ask state).2.1.roster.config = state.1.roster.config :=
    Roster.config_ask state.1.roster name state.1.breakerClock
  have reported (ending : Ending String) (worked : Counted) :
      ((countedGate name).report ending worked).2.1.breakerClock = worked.1.breakerClock ∧
        ((countedGate name).report ending worked).2.2 = worked.2 ∧
          ((countedGate name).report ending worked).2.1.roster.config =
            worked.1.roster.config := by
    unfold Gate.report
    cases Verdict.of ending <;> exact ⟨rfl, rfl, rfl⟩
  rw [← isThrough, ← sameConfig]
  refine ⟨_, _, Gate.execute_of_passed passes _, ?_⟩
  obtain ⟨sameClock, sameCount, sameConfigs⟩ :=
    reported (.finished result) (work lasts result ((countedGate name).ask state).2).2
  exact ⟨sameClock, sameCount, sameConfigs, guards.get_report (.finished result) _ 0,
    guards.report_fst (.finished result) _⟩

theorem visit_passes
    (lasts : Duration)
    (result : Except Fault String)
    (accepts : (state.1.roster.get name).refuses state.1.breakerClock = false) :
    (visit name lasts result state).1.Passes state.1.roster.config state.1.breakerClock
        (state.1.roster.get name) ∧
      (visit name lasts result state).2.1.roster.config = state.1.roster.config := by
  obtain ⟨ending, later, isExecuted, sameClock, isCount, sameConfig, isAfter, isEnding⟩ :=
    execute_work_of_accepts lasts result accepts
  have isThrough :
      ((countedGate name).ask state).2.1.roster.get name =
        (state.1.roster.get name).letThrough := by
    rw [(Gate.guards_counted name).get_ask state 0]
    simp [react, accepts]
  simp only [visit, isExecuted]
  refine ⟨⟨accepts, rfl, ?_, rfl, isThrough, ?_, ?_, ?_⟩, sameConfig⟩
  · rw [isCount]
    exact Nat.add_sub_cancel_left ..
  · rw [sameClock]
    exact Nat.le_add_right ..
  · rw [isThrough, isAfter, sameClock]
    exact reacts_react ..
  · rw [isThrough, isEnding, sameClock]

theorem visit_turnedAway
    (lasts : Duration)
    (result : Except Fault String)
    (refuses : (state.1.roster.get name).refuses state.1.breakerClock = true) :
    (visit name lasts result state).1.TurnedAway name state.1.breakerClock
        (state.1.roster.get name) ∧
      (visit name lasts result state).2.1.roster.config = state.1.roster.config := by
  have guards := Gate.guards_counted name
  have isRefused : ((countedGate name).ask state).1 = some (.circuitOpen name) := by
    rw [guards.ask_fst, if_pos refuses]
  have sameBreaker :
      ((countedGate name).ask state).2.1.roster.get name = state.1.roster.get name := by
    rw [guards.get_ask state 0]
    simp [react, refuses]
  simp only [visit, Gate.execute_of_refused isRefused]
  exact ⟨⟨refuses, rfl, rfl, Nat.sub_self _, rfl, rfl, sameBreaker, sameBreaker⟩,
    Roster.config_ask state.1.roster name state.1.breakerClock⟩

/-- A visit is as those before it demand, and the breaker has kept of it what the next one
needs. -/
theorem lawful_visit
    {config : BreakerConfig}
    {earlier : List Visit}
    (lasts : Duration)
    (result : Except Fault String)
    (sameConfig : state.1.roster.config = config)
    (tolerates : 1 ≤ config.maxFailures)
    (needsProbes : 1 ≤ config.halfOpenAttempts)
    (remembers :
      Visit.Remembers config earlier state.1.breakerClock (state.1.roster.get name)) :
    Visit.Lawful config name earlier (visit name lasts result state).1 ∧
      (visit name lasts result state).2.1.roster.config = config ∧
        Visit.Remembers config (earlier ++ [(visit name lasts result state).1])
          (visit name lasts result state).2.1.breakerClock
          ((visit name lasts result state).2.1.roster.get name) := by
  cases accepts : (state.1.roster.get name).refuses state.1.breakerClock with
  | true =>
      obtain ⟨turnedAway, keepsConfig⟩ := visit_turnedAway lasts result accepts
      exact ⟨turnedAway.lawful remembers, keepsConfig.trans sameConfig,
        turnedAway.remembers remembers⟩
  | false =>
      obtain ⟨passes, keepsConfig⟩ := visit_passes lasts result accepts
      rw [sameConfig] at passes
      rcases passes.found needsProbes remembers with found | found
      · exact ⟨passes.lawful_of_closed found, keepsConfig.trans sameConfig,
          passes.remembers_of_closed found⟩
      · exact ⟨passes.lawful_of_halfOpen found, keepsConfig.trans sameConfig,
          passes.remembers_of_halfOpen tolerates found⟩

theorem lawful_of_remembers
    {config : BreakerConfig}
    {turns : List Turn}
    {before earlier later : List Visit}
    {last : Visit}
    (sameConfig : state.1.roster.config = config)
    (tolerates : 1 ≤ config.maxFailures)
    (needsProbes : 1 ≤ config.halfOpenAttempts)
    (remembers :
      Visit.Remembers config before state.1.breakerClock (state.1.roster.get name))
    (isSplit : visits name turns state = earlier ++ last :: later) :
    Visit.Lawful config name (before ++ earlier) last := by
  -- The induction is on the turns: each visit that is passed becomes one of those before.
  induction turns generalizing state before earlier with
  | nil =>
      simp [visits] at isSplit
  | cons turn rest inductionHypothesis =>
      cases turn with
      | pause time =>
          have isRest :
              visits name rest (state.1.passTime time, state.2) =
                earlier ++ last :: later := isSplit
          exact inductionHypothesis (by exact sameConfig)
            (by exact remembers.of_le (Nat.le_add_right ..)) isRest
      | call lasts result =>
          obtain ⟨lawful, keepsConfig, remembersAll⟩ :=
            lawful_visit lasts result sameConfig tolerates needsProbes remembers
          cases earlier with
          | nil =>
              obtain ⟨isLast, _⟩ := List.cons.inj isSplit
              rw [List.append_nil, ← isLast]
              exact lawful
          | cons first earlier =>
              obtain ⟨isFirst, isRest⟩ := List.cons.inj isSplit
              rw [List.append_cons, ← isFirst]
              exact inductionHypothesis keepsConfig remembersAll isRest

/-- Each of the calls that come to a fresh breaker one after the other is as those before it
demand. -/
theorem lawful_of_visits
    (isFresh : state.1.roster.get name = fresh)
    (tolerates : 1 ≤ state.1.roster.config.maxFailures)
    (needsProbes : 1 ≤ state.1.roster.config.halfOpenAttempts)
    {turns : List Turn}
    {earlier later : List Visit}
    {last : Visit}
    (isSplit : visits name turns state = earlier ++ last :: later) :
    Visit.Lawful state.1.roster.config name earlier last := by
  have remembers :
      Visit.Remembers state.1.roster.config [] state.1.breakerClock
        (state.1.roster.get name) := by
    rw [isFresh]
    exact Visit.remembers_fresh tolerates state.1.breakerClock
  exact lawful_of_remembers rfl tolerates needsProbes remembers isSplit

/-- Two failures in a row open the circuit at 2, a call at 5 is turned away, and one at 12
makes the circuit half open and closes it. -/
theorem lawful_of_visits_recovery :
    ∃ earlier last,
      visits "q"
          [.call 1 (.error (.toolTimeout "q")), .call 1 (.error (.toolTimeout "q")),
            .pause 3, .call 1 (.ok ""), .pause 7, .call 1 (.ok "")]
          ({ roster := { config := ⟨2, 10, 1⟩ } }, 0) = earlier ++ [last] ∧
        Visit.Lawful ⟨2, 10, 1⟩ "q" earlier last ∧
          earlier.map (·.runs) = [1, 1, 0] ∧
            last.asked = 12 ∧ last.probes = true ∧ last.closes = true := by
  have isSplit :
      visits "q"
          [.call 1 (.error (.toolTimeout "q")), .call 1 (.error (.toolTimeout "q")),
            .pause 3, .call 1 (.ok ""), .pause 7, .call 1 (.ok "")]
          ({ roster := { config := ⟨2, 10, 1⟩ } }, 0) =
        [⟨0, 1, .error (.toolTimeout "q"), 1, .fault (.toolTimeout "q"),
            fresh, fresh, ⟨.closed, 1, 0, none⟩⟩,
          ⟨1, 2, .error (.toolTimeout "q"), 1, .fault (.toolTimeout "q"),
            ⟨.closed, 1, 0, none⟩, ⟨.closed, 1, 0, none⟩, ⟨.opened, 2, 0, some 12⟩⟩,
          ⟨5, 5, .ok "", 0, .fault (.circuitOpen "q"), ⟨.opened, 2, 0, some 12⟩,
            ⟨.opened, 2, 0, some 12⟩, ⟨.opened, 2, 0, some 12⟩⟩] ++
          [⟨12, 13, .ok "", 1, .value "",
            ⟨.opened, 2, 0, some 12⟩, ⟨.halfOpen, 2, 0, some 12⟩, fresh⟩] := by
    rfl
  refine ⟨_, _, isSplit, ?_, rfl, rfl, rfl, rfl⟩
  exact lawful_of_visits rfl (by decide) (by decide) isSplit

/-- A reset time that ends at no instant keeps nobody away: the first failure opens the circuit
and breaks down, and the call that comes at once is done. -/
theorem runs_of_endless_reset :
    ∃ trip last,
      visits "q" [.call 0 (.error (.toolTimeout "q")), .call 0 (.ok "")]
          ({ roster := { config := ⟨1, .ofSeconds 18446744073709551615, 1⟩ } }, 0) =
            [trip, last] ∧
        Visit.InForce [trip] trip ∧
          last.asked < trip.ended + Duration.ofSeconds 18446744073709551615 ∧
            last.runs = 1 ∧ last.ending = .value "" := by
  refine ⟨_, _, rfl, ⟨[], [], rfl, ?_, nofun⟩, ?_, rfl, rfl⟩ <;>
    decide

end Rehearsal

end Runbook
