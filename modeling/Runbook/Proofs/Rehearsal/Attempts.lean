import Runbook.Proofs.Rehearsal.Lone
import Runbook.Proofs.Retry.Account

namespace Runbook

/-!
# What the attempts of an invocation come to

An attempt of a tool has a result: a text, or a fault of its own.  A tool that breaks down
while it runs has failed, like one that reports a failure or takes too long, and is attempted
again if the policy allows.  The attempts conclude an invocation together.  Each of them
performs the step of the tool that is next, and ends in a way that is open to that step.
-/

namespace AttemptOutcome

/-- The fault of an attempt that failed by itself. -/
def failure? (tool : String) : AttemptOutcome → Option Fault
  | .failed reason => some (.toolFailed tool reason)
  | .panicked => some (.toolFailed tool "tool panicked")
  | .timedOut => some (.toolTimeout tool)
  | .text _ => none
  | .interrupted _ => none
  | .brokeDown => none

/-- Whether each of some attempts failed by itself. -/
def AllFailed (tool : String) (tried : List AttemptOutcome) : Prop :=
  ∀ outcome ∈ tried, outcome.failure? tool ≠ none

variable {tool : String} {outcome : AttemptOutcome} {tried : List AttemptOutcome}

theorem allFailed_nil :
    AllFailed tool [] :=
  fun _ isMember => (List.not_mem_nil isMember).elim

theorem allFailed_concat
    {fault : Fault}
    (allFailed : AllFailed tool tried)
    (isFailure : outcome.failure? tool = some fault) :
    AllFailed tool (tried ++ [outcome]) := by
  intro other isMember
  rcases List.mem_append.mp isMember with isEarlier | isLast
  · exact allFailed other isEarlier
  · rw [List.mem_singleton.mp isLast, isFailure]
    exact Option.some_ne_none fault

theorem failure?_ne_none_of_concat
    (allFailed : AllFailed tool (tried ++ [outcome])) :
    outcome.failure? tool ≠ none :=
  allFailed outcome (List.mem_append_right tried (List.mem_singleton_self outcome))

/-- An attempt that failed ends with its fault, and another attempt may help. -/
theorem ending_of_failure
    {fault : Fault}
    (isFailure : outcome.failure? tool = some fault) :
    outcome.ending tool = .fault fault ∧ fault.isRetryable = true := by
  cases outcome with
  | failed reason =>
      cases isFailure
      exact ⟨rfl, rfl⟩
  | panicked =>
      cases isFailure
      exact ⟨rfl, rfl⟩
  | timedOut =>
      cases isFailure
      exact ⟨rfl, rfl⟩
  | text answer =>
      cases isFailure
  | interrupted reason =>
      cases isFailure
  | brokeDown =>
      cases isFailure

/-- No other attempt is called for by one that did not fail. -/
theorem not_isRetryable_of_no_failure
    (notFailed : outcome.failure? tool = none)
    (endsContext : ∀ fault, outcome = .interrupted fault → fault.endsContext = true) :
    (outcome.ending tool).isRetryable = false := by
  cases outcome with
  | text answer =>
      rfl
  | brokeDown =>
      rfl
  | interrupted fault =>
      cases retryable : fault.isRetryable with
      | false =>
          exact retryable
      | true =>
          have goesOn := Fault.endsContext_eq_false_of_isRetryable retryable
          rw [endsContext fault rfl] at goesOn
          cases goesOn
  | failed reason =>
      cases notFailed
  | panicked =>
      cases notFailed
  | timedOut =>
      cases notFailed

/-- The ways in which attempts conclude an invocation under a policy: the context ends before
the next attempt, an attempt does not fail, or the last one fails too. -/
inductive Concludes (policy : RetryPolicy) (tool : String) :
    List AttemptOutcome → Ending String → Prop where
  | cutOff {tried : List AttemptOutcome} {fault : Fault} :
      tried.length < policy.attempts →
      AllFailed tool tried →
      fault.endsContext = true →
      Concludes policy tool tried (.fault fault)
  | decided {tried : List AttemptOutcome} {last : AttemptOutcome} :
      tried.length < policy.attempts →
      AllFailed tool tried →
      last.failure? tool = none →
      Concludes policy tool (tried ++ [last]) (last.ending tool)
  | exhausted {tried : List AttemptOutcome} {last : AttemptOutcome} {fault : Fault} :
      tried.length + 1 = policy.attempts →
      AllFailed tool tried →
      last.failure? tool = some fault →
      Concludes policy tool (tried ++ [last])
        (.fault (if policy.attempts = 1 then fault
          else .retriesExhausted policy.attempts fault))

namespace Concludes

variable {policy : RetryPolicy} {work : Ending String}

/-- Only an attempt that broke down leaves an invocation without a result. -/
theorem eq_brokeDown_iff
    (concludes : Concludes policy tool tried work) :
    work = .brokeDown ↔ tried.getLast? = some .brokeDown := by
  cases concludes with
  | cutOff isBelow allFailed endsContext =>
      refine ⟨fun isBroken => (by cases isBroken), fun isLast => ?_⟩
      exact (allFailed _ (List.mem_of_getLast? isLast) rfl).elim
  | @decided tried last isBelow allFailed notFailed =>
      rw [List.getLast?_concat]
      cases last <;> simp [ending, Ending.value, Ending.fault]
  | @exhausted tried last fault isLast allFailed isFailure =>
      rw [List.getLast?_concat]
      refine ⟨fun isBroken => (by cases isBroken), fun isBroken => ?_⟩
      rw [Option.some.inj isBroken] at isFailure
      cases isFailure

/-- Attempts that all failed, as many as the policy allows, are one failure. -/
theorem verdict_of_allFailed
    (concludes : Concludes policy tool tried work)
    (isAll : tried.length = policy.attempts)
    (allFailed : AllFailed tool tried) :
    Verdict.of work = .failure := by
  cases concludes with
  | cutOff isBelow _ endsContext =>
      omega
  | decided isBelow _ notFailed =>
      exact (failure?_ne_none_of_concat allFailed notFailed).elim
  | @exhausted tried last fault isLast _ isFailure =>
      have goesOn : fault.endsContext = false :=
        Fault.endsContext_eq_false_of_isRetryable (ending_of_failure isFailure).2
      by_cases isOnly : policy.attempts = 1
      · simp [isOnly, Ending.fault, Verdict.of, goesOn]
      · simp [isOnly, Ending.fault, Verdict.of, Fault.endsContext]

end Concludes

end AttemptOutcome

namespace Rehearsal

open AttemptOutcome

/-- What the attempts that an invocation has made say of the stage that it has come to: as long
as it goes on they have all failed and the policy allows another one, and when it is over they
have concluded it. -/
def Stands (policy : RetryPolicy) (tool : String) (tried : List AttemptOutcome) :
    Stage String → Prop
  | .attempting attempt | .resting attempt =>
      attempt = tried.length + 1 ∧ tried.length < policy.attempts ∧ AllFailed tool tried
  | .ended ending => Concludes policy tool tried ending

/-- The instant at which an attempt that began at a given one has taken too long. -/
def Setup.limit (setup : Setup) (since : Instant) : Instant :=
  Duration.ofMillis (Duration.millisUp (since + setup.toolTimeout))

theorem Setup.le_limit
    (setup : Setup)
    (since : Instant) :
    since ≤ setup.limit since := by
  have roundsUp : ∀ nanos : Nat, nanos ≤ (nanos + 999999) / 1000000 * 1000000 := by
    omega
  exact (Nat.le_add_right since setup.toolTimeout).trans (roundsUp _)

/-- The ways in which an attempt may end that performs a step of a tool. -/
inductive ToolStep.MayEnd (setup : Setup) (tool : String) (input : Json) (step : ToolStep) :
    AttemptOutcome → Prop where
  /-- The step comes to its end in time. -/
  | comes {since : Instant} {outcome : AttemptOutcome} :
      step.act ≠ .breakDown →
      since + step.delay ≤ setup.limit since →
      step.outcome? tool input = some outcome →
      MayEnd setup tool input step outcome
  /-- The step takes too long. -/
  | late {since : Instant} :
      step.act ≠ .breakDown →
      setup.limit since < since + step.delay →
      MayEnd setup tool input step .timedOut
  /-- The step never ends. -/
  | hangs :
      step.act = .hang →
      MayEnd setup tool input step .timedOut
  /-- The context ends first. -/
  | interrupted {fault : Fault} :
      step.act ≠ .breakDown →
      fault.endsContext = true →
      MayEnd setup tool input step (.interrupted fault)
  /-- The tool breaks down before it begins to run. -/
  | early :
      step.act = .breakDown →
      MayEnd setup tool input step .brokeDown

/-- An attempt is interrupted only by the end of its context. -/
theorem ToolStep.MayEnd.endsContext
    {setup : Setup}
    {tool : String}
    {input : Json}
    {step : ToolStep}
    {fault : Fault}
    (mayEnd : step.MayEnd setup tool input (.interrupted fault)) :
    fault.endsContext = true := by
  cases mayEnd with
  | comes runs inTime comes =>
      have fits := World.fits_of_outcome? comes
      cases fits
  | interrupted runs endsContext =>
      exact endsContext

namespace Invocation

/-- The step that an invocation performs when its tool was invoked a number of times. -/
def stepAfter (invocation : Invocation) (count : Nat) : ToolStep :=
  invocation.tool.behaviour.stepFor invocation.input count

/-- The stages that an invocation comes to, with the attempts that it has made, when its tool
was invoked a number of times before. -/
inductive Reaches (setup : Setup) (invocation : Invocation) (count : Nat) :
    List AttemptOutcome → Stage String → Prop where
  | begun :
      Reaches setup invocation count [] (.resting 1)
  | rested {tried : List AttemptOutcome} {attempt : Nat} :
      Reaches setup invocation count tried (.resting attempt) →
      Reaches setup invocation count tried (.attempting attempt)
  | cutOff {tried : List AttemptOutcome} {attempt : Nat} {fault : Fault} :
      Reaches setup invocation count tried (.resting attempt) →
      fault.endsContext = true →
      Reaches setup invocation count tried (.ended (.fault fault))
  | attempted {tried : List AttemptOutcome} {attempt : Nat} {outcome : AttemptOutcome} :
      Reaches setup invocation count tried (.attempting attempt) →
      (invocation.stepAfter (count + tried.length)).MayEnd setup invocation.tool.name
        invocation.input outcome →
      Reaches setup invocation count (tried ++ [outcome])
        (Stage.afterAttempt setup.policy attempt (outcome.ending invocation.name))

namespace Reaches

variable {setup : Setup} {invocation : Invocation} {count : Nat}
  {tried : List AttemptOutcome} {stage : Stage String}

/-- After a rest the next attempt is entered, unless the context has ended. -/
theorem enter
    {attempt : Nat}
    (reaches : Reaches setup invocation count tried (.resting attempt))
    (context : Nat)
    (world : World) :
    Reaches setup invocation count tried (.enter attempt (world.ended context)) := by
  cases ended : world.ended context with
  | none =>
      exact reaches.rested
  | some fault =>
      exact reaches.cutOff (ContextTree.endsContext_of_ended ended)

/-- Each attempt performs the step that is next, and ends as that step may. -/
theorem performed
    (reaches : Reaches setup invocation count tried stage)
    {place : Nat}
    {outcome : AttemptOutcome}
    (isTried : tried[place]? = some outcome) :
    (invocation.stepAfter (count + place)).MayEnd setup invocation.tool.name invocation.input
      outcome := by
  induction reaches with
  | begun =>
      cases isTried
  | rested _ inductionHypothesis =>
      exact inductionHypothesis isTried
  | cutOff _ _ inductionHypothesis =>
      exact inductionHypothesis isTried
  | @attempted tried attempt last _ mayEnd inductionHypothesis =>
      rcases Nat.lt_trichotomy place tried.length with isEarlier | isLast | isLater
      · rw [List.getElem?_append_left isEarlier] at isTried
        exact inductionHypothesis isTried
      · rw [isLast, List.getElem?_concat_length] at isTried
        rw [isLast, ← Option.some.inj isTried]
        exact mayEnd
      · have isBeyond : (tried ++ [last]).length ≤ place := by
          rw [List.length_append]
          exact isLater
        rw [List.getElem?_eq_none isBeyond] at isTried
        cases isTried

/-- The attempts of an invocation bear out the stage that it has come to. -/
theorem stands
    (reaches : Reaches setup invocation count tried stage) :
    Stands setup.policy invocation.name tried stage := by
  induction reaches with
  | begun =>
      exact ⟨rfl, Nat.le_max_right _ _, allFailed_nil⟩
  | rested _ inductionHypothesis =>
      exact inductionHypothesis
  | cutOff _ endsContext inductionHypothesis =>
      obtain ⟨-, isBelow, allFailed⟩ := inductionHypothesis
      exact .cutOff isBelow allFailed endsContext
  | @attempted tried attempt outcome _ mayEnd inductionHypothesis =>
      obtain ⟨isNext, isBelow, allFailed⟩ := inductionHypothesis
      cases failure : outcome.failure? invocation.name with
      | none =>
          have notRetryable : (outcome.ending invocation.name).isRetryable = false :=
            not_isRetryable_of_no_failure failure fun fault isInterrupted =>
              (isInterrupted ▸ mayEnd).endsContext
          rw [Stage.afterAttempt_of_not_isRetryable notRetryable]
          exact .decided isBelow allFailed failure
      | some fault =>
          obtain ⟨isEnding, retryable⟩ := ending_of_failure failure
          rw [isEnding]
          by_cases isLast : tried.length + 1 = setup.policy.attempts
          · rw [isNext, isLast, Stage.afterAttempt_last retryable]
            exact .exhausted isLast allFailed failure
          · have isBelowToo : attempt < setup.policy.attempts := by
              omega
            have retryableToo : (Ending.fault fault : Ending String).isRetryable = true :=
              retryable
            rw [Stage.afterAttempt_of_lt retryableToo isBelowToo]
            refine ⟨?_, ?_, allFailed_concat allFailed failure⟩
            · rw [List.length_append, isNext]
              rfl
            · rw [List.length_append, List.length_singleton]
              omega

end Reaches

end Invocation

/-- An attempt that is under way performs a step, and its time limit has not passed unseen. -/
structure Flight.Performs (setup : Setup) (step : ToolStep) (flight : Flight) (world : World) :
    Prop where
  isStep :
    flight.step = step
  runs :
    step.act ≠ .breakDown
  inTime :
    world.now ≤ flight.limit
  timed :
    ∃ since, flight.limit = setup.limit since ∧
      (flight.readyAt = some (since + step.delay) ∨
        flight.readyAt = none ∧ step.act = .hang)

/-- Only a step that hangs does not come to an end. -/
theorem ToolStep.act_of_outcome?_eq_none
    {step : ToolStep}
    {tool : String}
    {input : Json}
    (isEndless : step.outcome? tool input = none) :
    step.act = .hang := by
  unfold outcome? at isEndless
  split at isEndless
  case h_5 hangs =>
    exact hangs
  all_goals cases isEndless

/-- Everything that an attempt does leaves the breakers and the counts of invocations
alone. -/
structure World.Spares (world later : World) : Prop where
  sameCounts :
    later.invocations = world.invocations
  sameRoster :
    later.roster = world.roster
  sameClock :
    later.breakerClock = world.breakerClock

namespace World

variable {setup : Setup} {context : Nat} {invocation : Invocation} {world later : World}
  {step : ToolStep} {flight : Flight}

theorem spares_refl
    (world : World) :
    world.Spares world :=
  ⟨rfl, rfl, rfl⟩

theorem spares_noteRest
    (context : Nat)
    (duration : Duration)
    (world : World) :
    world.Spares (world.noteRest context duration) := by
  unfold noteRest
  dsimp only
  split <;> exact ⟨rfl, rfl, rfl⟩

theorem spares_afterFlight
    (context : Nat)
    (flight : Flight)
    (world : World) :
    world.Spares (world.afterFlight context flight) := by
  unfold afterFlight
  split <;> exact ⟨rfl, rfl, rfl⟩

@[simp] theorem now_afterFlight
    (context : Nat)
    (flight : Flight)
    (world : World) :
    (world.afterFlight context flight).now = world.now := by
  unfold afterFlight
  split <;> rfl

theorem spares_lookAtFlight
    (context : Nat)
    (invocation : Invocation)
    (flight : Flight)
    (world : World) :
    world.Spares (world.lookAtFlight context invocation flight).2 ∧
      (world.lookAtFlight context invocation flight).2.now = world.now := by
  cases ended : world.ended context with
  | some fault =>
      simp only [lookAtFlight, done_eq_ended, ended]
      exact ⟨⟨rfl, rfl, rfl⟩, rfl⟩
  | none =>
      obtain ⟨sameCounts, sameRoster, sameClock⟩ := spares_afterFlight context flight world
      have sameNow := now_afterFlight context flight world
      rw [lookAtFlight_of_none ended]
      dsimp only
      split
      · exact ⟨⟨sameCounts, sameRoster, sameClock⟩, sameNow⟩
      · split <;> exact ⟨⟨sameCounts, sameRoster, sameClock⟩, sameNow⟩

/-- An attempt that performs a step ends as that step may. -/
theorem mayEnd_of_lookAtFlight
    {outcome : AttemptOutcome}
    (performs : flight.Performs setup step world)
    (looked : world.lookAtFlight context invocation flight = (.inl outcome, later)) :
    step.MayEnd setup invocation.tool.name invocation.input outcome := by
  obtain ⟨isStep, runs, inTime, since, isLimit, isReady⟩ := performs
  cases ended : world.ended context with
  | some fault =>
      simp only [lookAtFlight, done_eq_ended, ended] at looked
      cases looked
      exact .interrupted runs (ContextTree.endsContext_of_ended ended)
  | none =>
      rw [lookAtFlight_of_none ended] at looked
      dsimp only at looked
      rw [isStep] at looked
      split at looked
      case h_1 isCome comes =>
        cases looked
        rcases isReady with ready | ⟨never, -⟩
        · have ready_le : since + step.delay ≤ world.now := by
            simpa [ready, ContextTree.hasCome] using isCome
          exact .comes runs (ready_le.trans (isLimit ▸ inTime)) comes
        · rw [never] at isCome
          cases isCome
      case h_2 notCome =>
        split at looked
        case isTrue isLate =>
          cases looked
          rw [now_afterFlight, isLimit] at isLate
          rcases isReady with ready | ⟨-, hangs⟩
          · by_cases isCome : since + step.delay ≤ world.now
            · cases comes : step.outcome? invocation.tool.name invocation.input with
              | none =>
                  exact .hangs (ToolStep.act_of_outcome?_eq_none comes)
              | some outcome =>
                  exact (notCome outcome (by simpa [ready, ContextTree.hasCome] using isCome)
                    comes).elim
            · exact .late runs (isLate.trans_lt (Nat.lt_of_not_le isCome))
          · exact .hangs hangs
        case isFalse =>
          cases looked

/-- An attempt that goes on performs its step still. -/
theorem performs_of_lookAtFlight
    {next : Flight}
    (performs : flight.Performs setup step world)
    (looked : world.lookAtFlight context invocation flight = (.inr next, later)) :
    next.Performs setup step later := by
  obtain ⟨isStep, runs, inTime, since, isLimit, isReady⟩ := performs
  have sameNow := (spares_lookAtFlight context invocation flight world).2
  obtain ⟨ended, notLate, isNext⟩ := goesOn_of_lookAtFlight looked
  rw [looked] at sameNow
  refine ⟨by rw [isNext]; exact isStep, runs, by rw [isNext, sameNow]; exact inTime, since,
    by rw [isNext]; exact isLimit, ?_⟩
  rw [isNext]
  rcases isReady with ready | ⟨never, hangs⟩
  · cases isCome : ContextTree.hasCome world.now flight.readyAt with
    | false =>
        exact Or.inl ready
    | true =>
        -- The step is through but the attempt goes on, so the step does not end.
        rw [lookAtFlight_of_none ended, isCome, isStep] at looked
        cases comes : step.outcome? invocation.tool.name invocation.input with
        | none =>
            exact Or.inr ⟨rfl, ToolStep.act_of_outcome?_eq_none comes⟩
        | some outcome =>
            rw [comes] at looked
            cases looked
  · rw [never]
    exact Or.inr ⟨by split <;> rfl, hangs⟩

/-- One more invocation is counted for a tool. -/
theorem invocationCount_countInvocation
    (world : World)
    (number : Nat) :
    (world.countInvocation number).invocationCount number =
      world.invocationCount number + 1 := by
  simp [countInvocation, invocationCount]

theorem beginAttempt_of_breakDown
    (breaksDown :
      (invocation.stepAfter
        (world.invocationCount invocation.tool.behaviour.number)).act = .breakDown) :
    world.beginAttempt setup invocation =
      (none, world.countInvocation invocation.tool.behaviour.number) :=
  if_pos breaksDown

/-- An attempt that does not break down at once performs the step that is next. -/
theorem beginAttempt_of_runs
    (setup : Setup)
    (runs :
      (invocation.stepAfter
        (world.invocationCount invocation.tool.behaviour.number)).act ≠ .breakDown) :
    ∃ flight,
      world.beginAttempt setup invocation =
          (some flight,
            (world.countInvocation invocation.tool.behaviour.number).note .started
              invocation.tool.name invocation.tag) ∧
        flight.Performs setup
          (invocation.stepAfter (world.invocationCount invocation.tool.behaviour.number))
          ((world.countInvocation invocation.tool.behaviour.number).note .started
            invocation.tool.name invocation.tag) :=
  ⟨_, if_neg runs, rfl, runs, setup.le_limit world.now, world.now, rfl, Or.inl rfl⟩

end World

end Rehearsal

end Runbook
