import Runbook.Proofs.Breaker.Gates
import Runbook.Proofs.Rehearsal.Attempts

namespace Runbook

/-!
# What comes of an invocation

An invocation of a tool abides by its attempts, however far it is taken: they are all that is
counted for the tool, and the breakers stay as they are until it is over.  Then the breaker
hears once of what all attempts have come to.  Only a tool that breaks down before it begins
to run, and a failure that cannot be counted, leave the caller without a result.
-/

namespace Rehearsal

open AttemptOutcome

/-- Where an invocation stands that began in a world: which attempts it has made, at which
stage it is and what it waits for.  Its attempts are all that is counted, and the breakers are
as they were. -/
structure Abides (setup : Setup) (context : Nat) (invocation : Invocation) (origin : World)
    (tried : List AttemptOutcome) (stage : Stage String) (wait : Option Wait)
    (world : World) : Prop where
  reaches :
    invocation.Reaches setup (origin.invocationCount invocation.tool.behaviour.number) tried
      stage
  idle :
    (∀ flight, wait ≠ some (.flight flight)) →
      world.invocationCount invocation.tool.behaviour.number =
        origin.invocationCount invocation.tool.behaviour.number + tried.length
  aloft : ∀ flight,
    wait = some (.flight flight) →
      (∃ attempt, stage = .attempting attempt) ∧
        flight.Performs setup
            (invocation.stepAfter
              (origin.invocationCount invocation.tool.behaviour.number + tried.length))
            world ∧
          world.invocationCount invocation.tool.behaviour.number =
            origin.invocationCount invocation.tool.behaviour.number + tried.length + 1
  explained : ∀ fault,
    stage = .ended (.fault fault) →
      fault.isOwn = true ∨ world.ended context = some fault
  sameRoster :
    world.roster = origin.roster
  sameClock :
    world.breakerClock = origin.breakerClock

namespace Abides

variable {setup : Setup} {context : Nat} {invocation : Invocation} {origin world later : World}
  {tried : List AttemptOutcome} {stage next : Stage String} {wait laterWait : Option Wait}

/-- While no attempt is under way, all attempts that were made have ended. -/
theorem counted
    (abides : Abides setup context invocation origin tried stage wait world)
    (notAttempting : ∀ attempt, stage ≠ .attempting attempt) :
    world.invocationCount invocation.tool.behaviour.number =
      origin.invocationCount invocation.tool.behaviour.number + tried.length := by
  refine abides.idle fun flight isFlight => ?_
  obtain ⟨⟨attempt, isAttempting⟩, -⟩ := abides.aloft flight isFlight
  exact notAttempting attempt isAttempting

/-- An invocation comes to a stage at which no attempt is under way. -/
theorem rests
    (abides : Abides setup context invocation origin tried stage wait world)
    (reaches :
      invocation.Reaches setup (origin.invocationCount invocation.tool.behaviour.number) tried
        next)
    (notAttempting : ∀ attempt, stage ≠ .attempting attempt)
    (spares : world.Spares later)
    (notFlight : ∀ flight, laterWait ≠ some (.flight flight))
    (explained : ∀ fault,
      next = .ended (.fault fault) →
        fault.isOwn = true ∨ later.ended context = some fault) :
    Abides setup context invocation origin tried next laterWait later where
  reaches := reaches
  idle _ := by
    rw [World.invocationCount, spares.sameCounts]
    exact abides.counted notAttempting
  aloft flight isFlight := (notFlight flight isFlight).elim
  explained := explained
  sameRoster := spares.sameRoster.trans abides.sameRoster
  sameClock := spares.sameClock.trans abides.sameClock

/-- Once the context has ended, a rest is the last that an invocation does. -/
theorem cutOff
    {attempt : Nat}
    {fault : Fault}
    (abides : Abides setup context invocation origin tried (.resting attempt) wait world)
    (ended : world.ended context = some fault) :
    Abides setup context invocation origin tried (.ended (.fault fault)) none world := by
  refine abides.rests (abides.reaches.cutOff (ContextTree.endsContext_of_ended ended))
    (fun _ isAttempting => by cases isAttempting) (World.spares_refl world)
    (fun _ isFlight => by cases isFlight) fun other isEnded => ?_
  cases isEnded
  exact Or.inr ended

/-- After a rest the next attempt is entered, unless the context has ended. -/
theorem enter
    {attempt : Nat}
    (abides : Abides setup context invocation origin tried (.resting attempt) wait world)
    (spares : world.Spares later) :
    Abides setup context invocation origin tried (.enter attempt (later.ended context)) none
      later := by
  refine abides.rests (abides.reaches.enter context later)
    (fun _ isAttempting => by cases isAttempting) spares (fun _ isFlight => by cases isFlight)
    fun fault isEnded => ?_
  have agrees := Stage.agrees_enter attempt (later.ended context)
  rw [isEnded] at agrees
  exact agrees fault rfl

/-- An attempt that goes on is under way still. -/
theorem goesOn
    {attempt : Nat}
    {flight laterFlight : Flight}
    (abides :
      Abides setup context invocation origin tried (.attempting attempt)
        (some (.flight flight)) world)
    (looked : world.lookAtFlight context invocation flight = (.inr laterFlight, later)) :
    Abides setup context invocation origin tried (.attempting attempt)
      (some (.flight laterFlight)) later := by
  obtain ⟨-, performs, counted⟩ := abides.aloft flight rfl
  obtain ⟨spares, -⟩ := World.spares_lookAtFlight context invocation flight world
  rw [looked] at spares
  refine {
    reaches := abides.reaches
    idle := fun notFlight => (notFlight laterFlight rfl).elim
    aloft := fun other isOther => ?_
    explained := fun fault isEnded => (by cases isEnded)
    sameRoster := spares.sameRoster.trans abides.sameRoster
    sameClock := spares.sameClock.trans abides.sameClock }
  cases isOther
  refine ⟨⟨attempt, rfl⟩, World.performs_of_lookAtFlight performs looked, ?_⟩
  rw [World.invocationCount, spares.sameCounts]
  exact counted

/-- An attempt that ends is one more attempt, and what follows it is known at once. -/
theorem attempted
    {attempt : Nat}
    {flight : Flight}
    {outcome : AttemptOutcome}
    (abides :
      Abides setup context invocation origin tried (.attempting attempt)
        (some (.flight flight)) world)
    (looked : world.lookAtFlight context invocation flight = (.inl outcome, later)) :
    Abides setup context invocation origin (tried ++ [outcome])
      (Stage.afterAttempt setup.policy attempt (outcome.ending invocation.name)) none later := by
  obtain ⟨-, performs, counted⟩ := abides.aloft flight rfl
  obtain ⟨spares, -⟩ := World.spares_lookAtFlight context invocation flight world
  have mayEnd := World.mayEnd_of_lookAtFlight performs looked
  have agrees :
      Stage.Agrees (world.ended context)
        (.afterAttempt setup.policy attempt (outcome.ending invocation.name)) :=
    Stage.agrees_afterAttempt setup.policy attempt fun _ met =>
      (World.fits_of_lookAtFlight looked).isOwn_or_ended met
  rw [looked] at spares
  refine {
    reaches := abides.reaches.attempted mayEnd
    idle := fun _ => ?_
    aloft := fun _ isFlight => (by cases isFlight)
    explained := fun fault isEnded => ?_
    sameRoster := spares.sameRoster.trans abides.sameRoster
    sameClock := spares.sameClock.trans abides.sameClock }
  · rw [World.invocationCount, spares.sameCounts, List.length_append]
    exact counted
  · rw [isEnded] at agrees
    rcases agrees fault rfl with isOwn | ended
    · exact Or.inl isOwn
    · simp only [World.lookAtFlight, World.done_eq_ended, ended] at looked
      cases looked
      exact Or.inr ended

/-- An attempt that is due begins, unless the tool breaks down. -/
theorem begins
    {attempt : Nat}
    (abides : Abides setup context invocation origin tried (.attempting attempt) wait world)
    (notFlight : ∀ flight, wait ≠ some (.flight flight)) :
    let begun := world.beginAttempt setup invocation
    match begun.1 with
    | some flight =>
        Abides setup context invocation origin tried (.attempting attempt)
          (some (.flight flight)) begun.2
    | none =>
        Abides setup context invocation origin (tried ++ [.brokeDown]) (.ended .brokeDown) none
          begun.2 := by
  have counted := abides.idle notFlight
  have countedOn :=
    World.invocationCount_countInvocation world invocation.tool.behaviour.number
  rw [counted] at countedOn
  by_cases breaksDown :
      (invocation.stepAfter
        (world.invocationCount invocation.tool.behaviour.number)).act = .breakDown
  · rw [World.beginAttempt_of_breakDown breaksDown]
    rw [counted] at breaksDown
    exact {
      reaches := abides.reaches.attempted (.early breaksDown)
      idle := fun _ => by rw [countedOn, List.length_append]; rfl
      aloft := fun _ isFlight => by cases isFlight
      explained := fun _ isEnded => by cases isEnded
      sameRoster := abides.sameRoster
      sameClock := abides.sameClock }
  · obtain ⟨flight, isBegun, performs⟩ :=
      World.beginAttempt_of_runs setup breaksDown
    rw [isBegun]
    rw [counted] at performs
    exact {
      reaches := abides.reaches
      idle := fun noFlight => (noFlight flight rfl).elim
      aloft := fun other isOther => by
        cases isOther
        exact ⟨⟨attempt, rfl⟩, performs, countedOn⟩
      explained := fun _ isEnded => by cases isEnded
      sameRoster := abides.sameRoster
      sameClock := abides.sameClock }

/-- However far an invocation is taken, it abides by its attempts. -/
theorem advance
    (fuel : Nat)
    (stage : Stage String)
    (wait : Option Wait)
    (world : World) :
    ∀ tried, Abides setup context invocation origin tried stage wait world →
      let after := Rehearsal.advance setup context invocation fuel stage wait world
      ∃ tried, Abides setup context invocation origin tried after.1 after.2.1 after.2.2 := by
  fun_induction Rehearsal.advance setup context invocation fuel stage wait world with
  | case1 stage wait world =>
      intro tried abides
      exact ⟨tried, abides⟩
  | case2 fuel ending wait world =>
      intro tried abides
      exact ⟨tried, abides.rests abides.reaches (fun _ isAttempting => by cases isAttempting)
        (World.spares_refl world) (fun _ isFlight => by cases isFlight) abides.explained⟩
  | case3 fuel attempt flight world laterFlight later looked =>
      intro tried abides
      exact ⟨tried, abides.goesOn looked⟩
  | case4 fuel attempt flight world outcome later looked next inductionHypothesis =>
      intro tried abides
      exact inductionHypothesis _ (abides.attempted looked)
  | case5 fuel attempt wait world notFlight later begun =>
      intro tried abides
      have begins := abides.begins notFlight
      rw [begun] at begins
      exact ⟨_, begins⟩
  | case6 fuel attempt wait world notFlight flight later begun inductionHypothesis =>
      intro tried abides
      have begins := abides.begins notFlight
      rw [begun] at begins
      exact inductionHypothesis _ begins
  | case7 fuel attempt until_ world fault ended =>
      intro tried abides
      rw [World.done_eq_ended] at ended
      exact ⟨tried, abides.cutOff ended⟩
  | case8 fuel attempt until_ world ended isOver inductionHypothesis =>
      intro tried abides
      rw [World.done_eq_ended] at ended
      have entered := abides.enter (World.spares_refl world)
      rw [ended] at entered
      exact inductionHypothesis _ entered
  | case9 fuel attempt until_ world ended goesOn =>
      intro tried abides
      exact ⟨tried, abides⟩
  | case10 fuel attempt wait world notRest fault ended =>
      intro tried abides
      rw [World.done_eq_ended] at ended
      exact ⟨tried, abides.cutOff ended⟩
  | case11 fuel attempt wait world notRest ended delay sleeps inductionHypothesis =>
      intro tried abides
      exact inductionHypothesis _ (abides.rests abides.reaches
        (fun _ isAttempting => by cases isAttempting) (World.spares_refl world)
        (fun _ isFlight => by cases isFlight) fun _ isEnded => by cases isEnded)
  | case12 fuel attempt wait world notRest ended delay notSleeps later inductionHypothesis =>
      intro tried abides
      exact inductionHypothesis _ (abides.enter (World.spares_noteRest context delay world))

/-- Whoever waits for an attempt waits no longer than its time limit. -/
theorem next_le_limit
    (flight : Flight)
    {limit : Option Instant}
    {instant : Instant}
    (next : earliest (some (Wait.flight flight).next) limit = some instant) :
    instant ≤ flight.limit := by
  have next_le : (Wait.flight flight).next ≤ flight.limit := by
    cases ready : flight.readyAt <;> simp [Wait.next, earliest, ready]
  cases limit with
  | none =>
      exact Option.some.inj next ▸ next_le
  | some other =>
      rw [← Option.some.inj next]
      exact (Nat.min_le_left _ _).trans next_le

/-- Time that passes up to the next instant that matters leaves no time limit behind. -/
theorem goTo
    {awaited : Wait}
    {instant : Instant}
    (abides : Abides setup context invocation origin tried stage (some awaited) world)
    (next : earliest (some awaited.next) (world.contextEnd? context) = some instant)
    (goesOn : ∀ ending, stage ≠ .ended ending) :
    Abides setup context invocation origin tried stage (some awaited) (world.goTo instant) := by
  refine {
    reaches := abides.reaches
    idle := abides.idle
    aloft := fun flight isFlight => ?_
    explained := fun fault isEnded => (goesOn _ isEnded).elim
    sameRoster := abides.sameRoster
    sameClock := abides.sameClock }
  obtain ⟨isAttempting, performs, counted⟩ := abides.aloft flight isFlight
  refine ⟨isAttempting, { performs with inTime := Nat.max_le.mpr ⟨performs.inTime, ?_⟩ },
    counted⟩
  rw [Option.some.inj isFlight] at next
  exact next_le_limit flight next

/-- With more turns than it still has to wait, an invocation is carried through to an ending
that its attempts have come to. -/
theorem carryThrough
    (fuel : Nat)
    (abides : Abides setup context invocation origin tried stage wait world)
    (enough :
      let after :=
        Rehearsal.advance setup context invocation (advanceFuel setup) stage wait world
      waits setup.policy.attempts after.1 after.2.1 < fuel) :
    let carried := Rehearsal.carryThrough setup context invocation fuel stage wait world
    ∃ tried,
      Abides setup context invocation origin tried (.ended carried.1) none carried.2 := by
  -- The induction is on the turns, as many as it may still have to wait.
  induction fuel generalizing tried stage wait world with
  | zero =>
      exact (Nat.not_lt_zero _ enough).elim
  | succ fuel inductionHypothesis =>
      obtain ⟨triedOn, abidesOn⟩ :=
        Abides.advance (advanceFuel setup) stage wait world tried abides
      have rests :=
        rests_advance setup context invocation (advanceFuel setup) stage wait world
          (needed_le setup.policy.attempts stage wait)
      cases advanced :
          Rehearsal.advance setup context invocation (advanceFuel setup) stage wait world with
      | mk next rest =>
          obtain ⟨nextWait, after⟩ := rest
          simp only [advanced] at abidesOn rests enough
          rcases rests with ⟨ending, isEnded⟩ | suits
          · rw [isEnded] at advanced abidesOn
            simp only [Rehearsal.carryThrough, advanced]
            exact ⟨triedOn, abidesOn.rests abidesOn.reaches
              (fun _ isAttempting => by cases isAttempting) (World.spares_refl after)
              (fun _ isFlight => by cases isFlight) abidesOn.explained⟩
          · obtain ⟨awaited, instant, isAwaited, isNext, goesOn⟩ :=
              exists_carryThrough fuel advanced suits
            have less : waits setup.policy.attempts next nextWait < fuel + 1 :=
              enough
            rw [isAwaited] at suits less abidesOn
            have fewer :=
              waits_advance_lt setup invocation (4 * setup.policy.attempts + 7) suits
                (isDue_goTo isNext)
            have notEnded : ∀ ending, next ≠ .ended ending := by
              intro ending isEnded
              rw [isEnded] at suits
              cases suits
            rw [goesOn, isAwaited]
            exact inductionHypothesis (abidesOn.goTo isNext notEnded)
              (fewer.trans_le (Nat.le_of_lt_succ less))

/-- An invocation begins with no attempt made. -/
theorem begun
    (setup : Setup)
    (context : Nat)
    (invocation : Invocation)
    (origin : World) :
    Abides setup context invocation origin [] (.resting 1) none origin where
  reaches := .begun
  idle _ := rfl
  aloft _ isFlight := by cases isFlight
  explained _ isEnded := by cases isEnded
  sameRoster := rfl
  sameClock := rfl

end Abides

/-- The end of a context is not what an invocation meets by itself. -/
theorem isOwn_eq_false_of_endsContext
    {fault : Fault}
    (endsContext : fault.endsContext = true) :
    fault.isOwn = false := by
  cases fault with
  | cancelled =>
      rfl
  | deadlineExceeded =>
      rfl
  | _ =>
      cases endsContext

namespace World

variable {setup : Setup} {context : Nat} {tool : ScriptedTool} {name : String} {input : Json}
  {world : World}

/-- The world once the breaker of a name was asked. -/
def asked (world : World) (name : String) : World :=
  { world with roster := (world.roster.ask name world.breakerClock).2 }

/-- Whether counting a failure of a name breaks down. -/
def failureBreaksDown (world : World) (name : String) : Bool :=
  (world.roster.get name).failBreaksDown world.roster.config world.breakerClock

/-- What comes of an invocation that the breaker of its name let pass: which attempts were
made, what they came to together and what the caller gets. -/
structure Resolves (setup : Setup) (context : Nat) (tool : ScriptedTool) (name : String)
    (input : Json) (world : World) (tried : List AttemptOutcome) (work ending : Ending String)
    (later : World) : Prop where
  /-- The attempts are all the invocations that are counted for the tool. -/
  counted :
    later.invocationCount tool.behaviour.number =
      world.invocationCount tool.behaviour.number + tried.length
  /-- Each attempt performs the next step of the tool and ends as that step may. -/
  performed : ∀ place outcome,
    tried[place]? = some outcome →
      (tool.behaviour.stepFor input
        (world.invocationCount tool.behaviour.number + place)).MayEnd setup tool.name input
          outcome
  /-- An attempt that fails is followed by another one, up to the last that the policy
  allows, unless the context ends. -/
  concluded :
    Concludes setup.policy name tried work
  explained : ∀ fault,
    work = .fault fault →
      fault.endsContext = true → later.ended context = some fault
  /-- The breaker hears once of what all attempts have come to. -/
  reported :
    later.roster =
      world.roster.meet name ⟨0, world.breakerClock, .report (Verdict.of work)⟩
  /-- As many failures as the policy allows attempts are one failure to the breaker. -/
  oneFailure :
    tried.length = max setup.policy.maxAttempts 1 →
      AllFailed name tried →
        later.roster = (world.roster.fail name world.breakerClock).2
  /-- The caller gets what the attempts have come to, unless counting it breaks down. -/
  answered :
    ending =
      if Verdict.of work = .failure ∧ world.failureBreaksDown name = true then .brokeDown
      else work
  /-- So there is no result only where the tool broke down before it began to run, or the
  failure could not be counted. -/
  unwinds :
    ending = .brokeDown ↔
      tried.getLast? = some .brokeDown ∨
        Verdict.of work = .failure ∧ world.failureBreaksDown name = true

/-- A tool that is there is asked for at its breaker, and nothing else changes. -/
theorem openInvocation_of_get?
    (isEnabled : world.catalogue.get? name = some tool)
    (context : Nat)
    (input : Json) :
    world.openInvocation context name input =
      (if (world.roster.get name).refuses world.breakerClock then
          .refused (.circuitOpen name)
        else .admitted ⟨name, tool, input⟩ (.enter 1 (world.ended context)),
        world.asked name) := by
  by_cases refuses : (world.roster.get name).refuses world.breakerClock = true
  · simp only [openInvocation, isEnabled, gate, asked, Roster.ask, refuses, if_true]
  · simp only [openInvocation, isEnabled, gate, asked, Roster.ask, refuses]
    rfl

theorem invocations_report
    (name : String)
    (ending : Ending String)
    (world : World) :
    ((gate name).report ending world).2.invocations = world.invocations := by
  unfold Gate.report
  split <;> rfl

/-- What its attempts have come to is reported, and the caller gets it. -/
theorem resolves_of_abides
    {tried : List AttemptOutcome}
    {work : Ending String}
    {worked : World}
    (abides :
      Abides setup context ⟨name, tool, input⟩ world tried (.ended work) none worked) :
    Resolves setup context tool name input world tried work ((gate name).report work worked).1
      ((gate name).report work worked).2 := by
  have concludes : Concludes setup.policy name tried work :=
    abides.reaches.stands
  have reported := (Gate.guards_world name).report_snd work worked 0
  have answered :
      ((gate name).report work worked).1 =
        if Verdict.of work = .failure ∧ world.failureBreaksDown name = true then .brokeDown
        else work := by
    rw [failureBreaksDown, ← abides.sameRoster, ← abides.sameClock]
    exact (Gate.guards_world name).report_fst work worked
  rw [abides.sameRoster, abides.sameClock] at reported
  obtain ⟨sameTree, sameNow, -⟩ := exists_reported name work worked
  refine {
    counted := ?_
    performed := fun place outcome isTried => abides.reaches.performed isTried
    concluded := concludes
    explained := fun fault isWork endsContext => ?_
    reported := reported
    oneFailure := fun isAll allFailed => ?_
    answered := answered
    unwinds := ?_ }
  · rw [invocationCount, invocations_report]
    exact abides.idle fun _ isFlight => by cases isFlight
  · rcases abides.explained fault (by rw [isWork]) with isOwn | ended
    · rw [isOwn_eq_false_of_endsContext endsContext] at isOwn
      cases isOwn
    · rw [World.ended, sameTree, sameNow]
      exact ended
  · rw [reported, concludes.verdict_of_allFailed isAll allFailed]
    rfl
  · rw [answered, ← concludes.eq_brokeDown_iff]
    by_cases breaksDown : Verdict.of work = .failure ∧ world.failureBreaksDown name = true
    · exact ⟨fun _ => Or.inr breaksDown, fun _ => if_pos breaksDown⟩
    · rw [if_neg breaksDown]
      exact ⟨Or.inl, fun isEither => isEither.resolve_right breaksDown⟩

/-- An invocation of a tool that is there is turned away by its breaker, or its attempts and
what the breaker hears of them account for what comes of it. -/
theorem resolves_invoke
    (isEnabled : world.catalogue.get? name = some tool)
    (setup : Setup)
    (context : Nat)
    (input : Json) :
    let invoked := invoke setup context name input world
    ((world.roster.get name).refuses world.breakerClock = true →
        invoked = (.fault (.circuitOpen name), world.asked name)) ∧
      ((world.roster.get name).refuses world.breakerClock = false →
        ∃ tried work,
          Resolves setup context tool name input (world.asked name) tried work invoked.1
            invoked.2) := by
  have opened := openInvocation_of_get? isEnabled context input
  constructor
  · intro refuses
    rw [if_pos refuses] at opened
    simp only [invoke, opened]
  · intro passes
    rw [if_neg (by rw [passes]; exact Bool.false_ne_true)] at opened
    have begun :=
      (Abides.begun setup context ⟨name, tool, input⟩ (world.asked name)).enter
        (spares_refl (world.asked name))
    have enough :=
      (waits_advance_le setup context ⟨name, tool, input⟩ (advanceFuel setup)
        (.enter 1 (world.ended context)) none (world.asked name)).trans
        (waits_enter_le setup.policy.attempts 1 (world.ended context))
    obtain ⟨tried, abides⟩ :=
      begun.carryThrough (4 * setup.policy.attempts + 8) (Nat.lt_of_le_of_lt enough (by omega))
    simp only [invoke, opened]
    exact ⟨tried, _, resolves_of_abides abides⟩

/-- A tool that does the same whenever it is invoked. -/
def toolThat (act : Act) : ScriptedTool := ⟨"q", "", .null, ⟨0, [{ act := act }]⟩⟩

/-- A world with one context and one such tool. -/
def worldWith (act : Act) : World where
  tree := .root {}
  catalogue := { entries := [⟨"q", toolThat act, { category := .custom }⟩] }

/-- A tool that breaks down while it runs is attempted as often as the policy allows, and the
breaker counts one failure. -/
theorem resolves_invoke_panic :
    let invoked := invoke {} 0 "q" .null (worldWith .panic)
    (worldWith .panic).catalogue.get? "q" = some (toolThat .panic) ∧
      ∃ tried work,
        Resolves {} 0 (toolThat .panic) "q" .null ((worldWith .panic).asked "q") tried work
            invoked.1 invoked.2 ∧
          tried.length = 3 ∧
            invoked.1 = .fault (.retriesExhausted 3 (.toolFailed "q" "tool panicked")) ∧
              invoked.2.roster.get "q" = ⟨.closed, 1, 0, none⟩ := by
  intro invoked
  have isEnabled : (worldWith .panic).catalogue.get? "q" = some (toolThat .panic) := by
    rfl
  obtain ⟨-, passed⟩ := resolves_invoke isEnabled {} 0 .null
  obtain ⟨tried, work, resolves⟩ := passed (by decide +kernel)
  have counted := resolves.counted
  have isThree : invoked.2.invocationCount (toolThat .panic).behaviour.number = 3 := by
    decide +kernel
  have isNone :
      ((worldWith .panic).asked "q").invocationCount (toolThat .panic).behaviour.number = 0 := by
    decide +kernel
  rw [isNone, Nat.zero_add] at counted
  exact ⟨isEnabled, tried, work, resolves, counted.symm.trans isThree, by decide +kernel,
    by decide +kernel⟩

/-- A tool that breaks down before it begins to run is attempted once, whatever the policy
allows; there is no result, and the breaker counts no failure. -/
theorem brokeDown_of_early_breakdown :
    let invoked := invoke {} 0 "q" .null (worldWith .breakDown)
    invoked.1 = .brokeDown ∧
      invoked.2.invocationCount 0 = 1 ∧ invoked.2.roster.get "q" = .fresh := by
  decide +kernel

end World

end Rehearsal

end Runbook
