import Runbook.Proofs.Batch.Progress
import Runbook.Proofs.Context
import Runbook.Rehearsal.Invocation

namespace Runbook

/-!
# Rehearsed invocations

However far a rehearsal takes an invocation at an instant, the invocation gets there by
the moves that are open to it: its attempts and rests end one after the other, and its
context may end between two of them.  A rehearsal stops only where the invocation is over
or has to wait.
-/

/-- An invocation as it meets its context. -/
structure Standing where
  /-- Why the context has ended, if it has. -/
  ended : Option Fault
  stage : Stage String

namespace Standing

/-- What may happen next to an invocation: it goes on, or its context ends. -/
inductive Moves (policy : RetryPolicy) (name : String) : Standing → Standing → Prop where
  | proceed {ended : Option Fault} {stage later : Stage String} :
      Stage.Proceeds policy name ended stage later →
      Moves policy name ⟨ended, stage⟩ ⟨ended, later⟩
  | outside {ended : Option Fault} {fault : Fault} {stage : Stage String} :
      ContextEnds ended fault →
      Moves policy name ⟨ended, stage⟩ ⟨some fault, stage⟩

/-- Whatever may have happened after any number of moves. -/
abbrev Reaches (policy : RetryPolicy) (name : String) : Standing → Standing → Prop :=
  Relation.ReflTransGen (Moves policy name)

theorem reaches_of_goes
    {policy : RetryPolicy}
    {name : String}
    {ended later : Option Fault}
    (goes : ContextGoes ended later)
    (stage : Stage String) :
    Reaches policy name ⟨ended, stage⟩ ⟨later, stage⟩ := by
  cases goes with
  | stays =>
      exact .refl
  | ends contextEnds =>
      exact .single (.outside contextEnds)

end Standing

namespace Rehearsal

/-- Whether an invocation at a stage has something to wait for. -/
def Wait.suits : Stage String → Option Wait → Bool
  | .attempting _, some (.flight _) => true
  | .resting _, some (.rest _) => true
  | _, _ => false

namespace World

/-- No context is made, and a context goes on or ends. -/
structure Leads (context : Nat) (world later : World) : Prop where
  sameSize :
    later.tree.size = world.tree.size
  goes :
    ContextGoes (world.ended context) (later.ended context)

variable {context : Nat} {world : World}

theorem leads_of_same
    {later : World}
    (sameTree : later.tree = world.tree)
    (sameNow : later.now = world.now) :
    world.Leads context later := by
  have sameEnd : later.ended context = world.ended context := by
    simp only [ended, sameTree, sameNow]
  refine ⟨by rw [sameTree], ?_⟩
  rw [sameEnd]
  exact .stays

theorem leads_of_cancel
    {later : World}
    (inTree : context < world.tree.size)
    (cancelled : later.tree = world.tree.cancel context world.now)
    (sameNow : later.now = world.now) :
    world.Leads context later := by
  refine ⟨by rw [cancelled, ContextTree.size_cancel], ?_⟩
  simp only [ended, cancelled, sameNow]
  exact ContextTree.goes_cancel inTree world.now

/-- Time that passes changes nothing but that the context may end. -/
theorem leads_goTo
    (context : Nat)
    (world : World)
    (instant : Instant) :
    world.Leads context (world.goTo instant) :=
  ⟨rfl, ContextTree.goes_of_le _ _ (Nat.le_max_left _ _)⟩

theorem leads_noteRest
    (inTree : context < world.tree.size)
    (duration : Duration) :
    world.Leads context (world.noteRest context duration) := by
  unfold noteRest
  dsimp only
  split
  · exact leads_of_cancel inTree rfl rfl
  · exact leads_of_same rfl rfl

/-- Beginning an attempt is counted and noted, and nothing else changes. -/
theorem leads_beginAttempt
    (setup : Setup)
    (context : Nat)
    (invocation : Invocation)
    (world : World) :
    (world.beginAttempt setup invocation).2.ended context = world.ended context ∧
      (world.beginAttempt setup invocation).2.tree.size = world.tree.size := by
  unfold beginAttempt
  dsimp only
  split <;> exact ⟨rfl, rfl⟩

/-- An attempt whose time has come may cancel the context. -/
def afterFlight (context : Nat) (flight : Flight) (world : World) : World :=
  if ContextTree.hasCome world.now flight.readyAt && flight.step.cancels then
    world.cancel context world.now
  else world

/-- While the context goes on, an attempt ends, takes too long or goes on. -/
theorem lookAtFlight_of_none
    (goesOn : world.ended context = none)
    (invocation : Invocation)
    (flight : Flight) :
    world.lookAtFlight context invocation flight =
      let isReady := ContextTree.hasCome world.now flight.readyAt
      let later := world.afterFlight context flight
      match isReady, flight.step.outcome? invocation.tool.name invocation.input with
      | true, some outcome =>
          (.inl outcome, later.note .ended invocation.tool.name invocation.tag)
      | _, _ =>
          if flight.limit ≤ later.now then
            (.inl .timedOut, later.note .dropped invocation.tool.name invocation.tag)
          else
            (.inr { flight with readyAt := if isReady then none else flight.readyAt },
              later) := by
  simp only [lookAtFlight, done_eq_ended, goesOn]
  rfl

theorem leads_afterFlight
    (inTree : context < world.tree.size)
    (flight : Flight) :
    world.Leads context (world.afterFlight context flight) := by
  unfold afterFlight
  split
  · exact leads_of_cancel inTree rfl rfl
  · exact leads_of_same rfl rfl

/-- Looking at an attempt may cancel the context, if the attempt does. -/
theorem leads_lookAtFlight
    (inTree : context < world.tree.size)
    (invocation : Invocation)
    (flight : Flight) :
    world.Leads context (world.lookAtFlight context invocation flight).2 := by
  cases ended : world.ended context with
  | some fault =>
      simp only [lookAtFlight, done_eq_ended, ended]
      exact leads_of_same rfl rfl
  | none =>
      have leads := leads_afterFlight inTree flight
      rw [lookAtFlight_of_none ended]
      dsimp only
      split
      · exact ⟨leads.sameSize, leads.goes⟩
      · split
        · exact ⟨leads.sameSize, leads.goes⟩
        · exact leads

/-- A step is never interrupted by itself. -/
theorem fits_of_outcome?
    {step : ToolStep}
    {tool : String}
    {input : Json}
    {outcome : AttemptOutcome}
    (comes : step.outcome? tool input = some outcome) :
    outcome.Fits none := by
  unfold ToolStep.outcome? at comes
  split at comes <;> cases comes <;> rfl

/-- An attempt is interrupted when the context has ended, and only then. -/
theorem fits_of_lookAtFlight
    {invocation : Invocation}
    {flight : Flight}
    {outcome : AttemptOutcome}
    {later : World}
    (looked : world.lookAtFlight context invocation flight = (.inl outcome, later)) :
    outcome.Fits (world.ended context) := by
  cases ended : world.ended context with
  | some fault =>
      simp only [lookAtFlight, done_eq_ended, ended] at looked
      cases looked
      rfl
  | none =>
      rw [lookAtFlight_of_none ended] at looked
      dsimp only at looked
      split at looked
      case h_1 comes =>
        cases looked
        exact fits_of_outcome? comes
      case h_2 =>
        split at looked
        · cases looked
          rfl
        · cases looked

end World

/-- Only an invocation that is over is reported. -/
theorem reported_of_goesOn
    {stage : Stage String}
    (goesOn : ∀ ending, stage ≠ .ended ending)
    (breaksDown : Bool) :
    stage.reported breaksDown = stage := by
  cases stage with
  | attempting attempt =>
      rfl
  | resting attempt =>
      rfl
  | ended ending =>
      exact (goesOn ending rfl).elim

theorem reported_enter
    {context : Nat}
    {world : World}
    (attempt : Nat)
    (breaksDown : Bool) :
    (Stage.enter attempt (world.ended context)).reported breaksDown =
      .enter attempt (world.ended context) := by
  cases ended : world.ended context with
  | none =>
      rfl
  | some fault =>
      exact Stage.reported_fault (ContextTree.endsContext_of_ended ended) breaksDown

/-- No attempt follows another one at once. -/
theorem afterAttempt_ne_attempting
    (policy : RetryPolicy)
    (attempt other : Nat)
    (ending : Ending String) :
    Stage.afterAttempt policy attempt ending ≠ .attempting other := by
  unfold Stage.afterAttempt
  split
  · simp
  · simp
  · split
    · simp
    · split
      · simp
      · split <;> simp

/-- An attempt is entered only while the context goes on. -/
theorem ended_of_enter
    {attempt other : Nat}
    {ended : Option Fault}
    (entered : (Stage.enter attempt ended : Stage String) = .attempting other) :
    ended = none := by
  cases ended with
  | none =>
      rfl
  | some fault =>
      cases entered

theorem suits_of_no_flight
    {attempt : Nat}
    {wait : Option Wait}
    (notFlight : ∀ flight, wait = some (.flight flight) → False) :
    Wait.suits (.attempting attempt) wait = false := by
  match wait with
  | none =>
      rfl
  | some (.rest _) =>
      rfl
  | some (.flight flight) =>
      exact (notFlight flight rfl).elim

theorem suits_of_no_rest
    {attempt : Nat}
    {wait : Option Wait}
    (notRest : ∀ until_, wait = some (.rest until_) → False) :
    Wait.suits (.resting attempt) wait = false := by
  match wait with
  | none =>
      rfl
  | some (.flight _) =>
      rfl
  | some (.rest until_) =>
      exact (notRest until_ rfl).elim

/-- Once the context has ended, a rest is the last that an invocation does. -/
theorem reaches_of_rested
    (policy : RetryPolicy)
    (name : String)
    {context : Nat}
    {world : World}
    {fault : Fault}
    (ended : world.ended context = some fault)
    (attempt : Nat)
    (breaksDown : Bool) :
    Standing.Reaches policy name
      ⟨world.ended context, (Stage.resting attempt).reported breaksDown⟩
      ⟨world.ended context, (Stage.ended (.fault fault)).reported breaksDown⟩ := by
  rw [Stage.reported_fault (ContextTree.endsContext_of_ended ended), ended]
  exact .single (.proceed .rested)

/-- However far an invocation is taken, it gets there by moves that are open to it, no
matter what reporting its ending comes to. -/
theorem reaches_advance
    (setup : Setup)
    {context : Nat}
    (invocation : Invocation)
    (breaksDown : Bool)
    (fuel : Nat)
    (stage : Stage String)
    (wait : Option Wait)
    (world : World)
    (inTree : context < world.tree.size)
    (mayAttempt : ∀ attempt, stage = .attempting attempt →
      Wait.suits stage wait = true ∨ world.ended context = none) :
    let after := advance setup context invocation fuel stage wait world
    after.2.2.tree.size = world.tree.size ∧
      Standing.Reaches setup.policy invocation.name
        ⟨world.ended context, stage.reported breaksDown⟩
        ⟨after.2.2.ended context, after.1.reported breaksDown⟩ := by
  fun_induction advance setup context invocation fuel stage wait world with
  | case1 stage wait world =>
      exact ⟨rfl, .refl⟩
  | case2 fuel ending wait world =>
      exact ⟨rfl, .refl⟩
  | case3 fuel attempt flight world later after looked =>
      -- The attempt goes on.
      have leads := World.leads_lookAtFlight inTree invocation flight
      rw [looked] at leads
      exact ⟨leads.sameSize, Standing.reaches_of_goes leads.goes _⟩
  | case4 fuel attempt flight world outcome after looked next inductionHypothesis =>
      -- The attempt ends first; only then may it be seen that it cancelled the context.
      have leads := World.leads_lookAtFlight inTree invocation flight
      rw [looked] at leads
      have attempted :
          Standing.Moves setup.policy invocation.name
            ⟨world.ended context, .attempting attempt⟩
            ⟨world.ended context, next.reported breaksDown⟩ :=
        .proceed (.attempted breaksDown (World.fits_of_lookAtFlight looked))
      obtain ⟨sameSize, reaches⟩ :=
        inductionHypothesis (by rw [leads.sameSize]; exact inTree)
          fun other isAttempt => (afterAttempt_ne_attempting _ _ _ _ isAttempt).elim
      exact ⟨sameSize.trans leads.sameSize,
        ((Standing.reaches_of_goes leads.goes _).head attempted).trans reaches⟩
  | case5 fuel attempt wait world notFlight after begun =>
      -- The tool breaks down before it runs.
      obtain ⟨sameEnd, sameSize⟩ :=
        World.leads_beginAttempt setup context invocation world
      rw [begun] at sameEnd sameSize
      have goesOn : world.ended context = none := by
        rcases mayAttempt attempt rfl with suits | goesOn
        · rw [suits_of_no_flight notFlight] at suits
          cases suits
        · exact goesOn
      have broken : AttemptOutcome.brokeDown.Fits none := rfl
      refine ⟨sameSize, ?_⟩
      rw [sameEnd, goesOn]
      exact .single (.proceed (.attempted breaksDown broken))
  | case6 fuel attempt wait world notFlight flight after begun inductionHypothesis =>
      obtain ⟨sameEnd, sameSize⟩ :=
        World.leads_beginAttempt setup context invocation world
      rw [begun] at sameEnd sameSize
      obtain ⟨sameSizeLater, reaches⟩ :=
        inductionHypothesis (by rw [sameSize]; exact inTree) fun _ _ => Or.inl rfl
      rw [sameEnd] at reaches
      exact ⟨sameSizeLater.trans sameSize, reaches⟩
  | case7 fuel attempt until_ world fault ended =>
      rw [World.done_eq_ended] at ended
      exact ⟨rfl, reaches_of_rested _ _ ended attempt breaksDown⟩
  | case8 fuel attempt until_ world ended isOver inductionHypothesis =>
      rw [World.done_eq_ended] at ended
      obtain ⟨sameSize, reaches⟩ := inductionHypothesis inTree fun _ _ => Or.inr ended
      rw [ended] at reaches ⊢
      exact ⟨sameSize, reaches.head (.proceed .rested)⟩
  | case9 fuel attempt until_ world ended goesOn =>
      exact ⟨rfl, .refl⟩
  | case10 fuel attempt wait world notRest fault ended =>
      rw [World.done_eq_ended] at ended
      exact ⟨rfl, reaches_of_rested _ _ ended attempt breaksDown⟩
  | case11 fuel attempt wait world notRest ended delay sleeps inductionHypothesis =>
      exact inductionHypothesis inTree fun _ isAttempt => by cases isAttempt
  | case12 fuel attempt wait world notRest ended delay notSleeps after inductionHypothesis =>
      -- The context may be cancelled while the rest is noted.
      have leads : world.Leads context after := World.leads_noteRest inTree delay
      have rested :
          Standing.Moves setup.policy invocation.name
            ⟨after.ended context, .resting attempt⟩
            ⟨after.ended context,
              (Stage.enter attempt (after.ended context)).reported breaksDown⟩ := by
        rw [reported_enter]
        exact .proceed .rested
      obtain ⟨sameSize, reaches⟩ :=
        inductionHypothesis (by rw [leads.sameSize]; exact inTree)
          fun other isAttempt => Or.inr (ended_of_enter isAttempt)
      exact ⟨sameSize.trans leads.sameSize,
        ((Standing.reaches_of_goes leads.goes _).tail rested).trans reaches⟩

/-- How often an invocation may still be taken on: twice for each stage, and once less if
it already knows what it waits for. -/
def needed (attempts : Nat) (stage : Stage String) (wait : Option Wait) : Nat :=
  2 * stage.remaining attempts - if Wait.suits stage wait then 1 else 0

theorem needed_le
    (attempts : Nat)
    (stage : Stage String)
    (wait : Option Wait) :
    needed attempts stage wait ≤ 4 * attempts + 8 := by
  have bounded : stage.remaining attempts ≤ 2 * attempts + 4 := by
    cases stage <;> simp only [Stage.remaining] <;> omega
  unfold needed
  omega

theorem needed_of_suits
    {attempts : Nat}
    {stage : Stage String}
    {wait : Option Wait}
    (suits : Wait.suits stage wait = true) :
    needed attempts stage wait = 2 * stage.remaining attempts - 1 := by
  simp [needed, suits]

theorem needed_of_not_suits
    {attempts : Nat}
    {stage : Stage String}
    {wait : Option Wait}
    (suits : Wait.suits stage wait = false) :
    needed attempts stage wait = 2 * stage.remaining attempts := by
  simp [needed, suits]

theorem suits_none
    (stage : Stage String) :
    Wait.suits stage none = false := by
  cases stage <;> rfl

/-- Whether an invocation is over or has something to wait for. -/
def Rests (stage : Stage String) (wait : Option Wait) : Prop :=
  (∃ ending, stage = .ended ending) ∨ Wait.suits stage wait = true

/-- With that many turns an invocation is taken to its end or to something that it has to
wait for. -/
theorem rests_advance
    (setup : Setup)
    (context : Nat)
    (invocation : Invocation)
    (fuel : Nat)
    (stage : Stage String)
    (wait : Option Wait)
    (world : World)
    (enough : needed setup.policy.attempts stage wait ≤ fuel) :
    let after := advance setup context invocation fuel stage wait world
    Rests after.1 after.2.1 := by
  fun_induction advance setup context invocation fuel stage wait world with
  | case1 stage wait world =>
      cases stage with
      | ended ending =>
          exact Or.inl ⟨ending, rfl⟩
      | attempting attempt =>
          simp only [needed, Stage.remaining] at enough
          split at enough <;> omega
      | resting attempt =>
          simp only [needed, Stage.remaining] at enough
          split at enough <;> omega
  | case2 fuel ending wait world =>
      exact Or.inl ⟨ending, rfl⟩
  | case3 fuel attempt flight world later after looked =>
      exact Or.inr rfl
  | case4 fuel attempt flight world outcome after looked next inductionHypothesis =>
      have less :
          next.remaining setup.policy.attempts <
            (Stage.attempting attempt : Stage String).remaining setup.policy.attempts :=
        Stage.remaining_afterAttempt_lt setup.policy attempt _
      apply inductionHypothesis
      rw [needed_of_not_suits (suits_none next)]
      rw [needed_of_suits rfl] at enough
      omega
  | case5 fuel attempt wait world notFlight after begun =>
      exact Or.inl ⟨_, rfl⟩
  | case6 fuel attempt wait world notFlight flight after begun inductionHypothesis =>
      apply inductionHypothesis
      rw [needed_of_suits rfl]
      rw [needed_of_not_suits (suits_of_no_flight notFlight)] at enough
      omega
  | case7 fuel attempt until_ world fault ended =>
      rw [World.done_eq_ended] at ended
      exact Or.inl ⟨_, rfl⟩
  | case8 fuel attempt until_ world ended isOver inductionHypothesis =>
      rw [World.done_eq_ended] at ended
      have less :=
        Stage.remaining_enter_lt setup.policy.attempts attempt none
      apply inductionHypothesis
      rw [needed_of_not_suits (suits_none _)]
      rw [needed_of_suits rfl] at enough
      rw [Stage.enter] at less
      omega
  | case9 fuel attempt until_ world ended goesOn =>
      exact Or.inr rfl
  | case10 fuel attempt wait world notRest fault ended =>
      rw [World.done_eq_ended] at ended
      exact Or.inl ⟨_, rfl⟩
  | case11 fuel attempt wait world notRest ended delay sleeps inductionHypothesis =>
      apply inductionHypothesis
      rw [needed_of_suits rfl]
      rw [needed_of_not_suits (suits_of_no_rest notRest)] at enough
      omega
  | case12 fuel attempt wait world notRest ended delay notSleeps after inductionHypothesis =>
      have less :=
        Stage.remaining_enter_lt setup.policy.attempts attempt (after.ended context)
      apply inductionHypothesis
      rw [needed_of_not_suits (suits_none _)]
      rw [needed_of_not_suits (suits_of_no_rest notRest)] at enough
      omega

namespace World

variable {context : Nat} {world : World}

/-- An invocation is refused for a reason that is open to it, or begins its first
attempt; but for the breaker nothing changes. -/
theorem opens_openInvocation
    (context : Nat)
    (name : String)
    (input : Json)
    (world : World) :
    let opened := world.openInvocation context name input
    opened.2.tree = world.tree ∧ opened.2.now = world.now ∧
      ((∃ fault, opened.1 = .refused fault ∧
          Stage.Opens name (world.ended context) (.ended (.fault fault))) ∨
        ∃ tool, opened.1 =
          .admitted ⟨name, tool, input⟩ (.enter 1 (world.ended context))) := by
  unfold openInvocation
  cases world.catalogue.get? name with
  | none =>
      exact ⟨rfl, rfl, Or.inl ⟨_, rfl, .notFound⟩⟩
  | some tool =>
      simp only [gate, Roster.ask]
      by_cases refuses : (world.roster.get name).refuses world.breakerClock = true
      · simp only [refuses, if_true]
        exact ⟨trivial, trivial, Or.inl ⟨_, rfl, .turnedAway⟩⟩
      · simp only [refuses]
        exact ⟨rfl, rfl, Or.inr ⟨tool, rfl⟩⟩

/-- Reporting an ending may break down, and changes nothing but the breaker. -/
theorem exists_reported
    (name : String)
    (ending : Ending String)
    (world : World) :
    let reported := (gate name).report ending world
    reported.2.tree = world.tree ∧ reported.2.now = world.now ∧
      ∃ breaksDown, reported.1 = ending.reported breaksDown := by
  cases verdict : Verdict.of ending with
  | success =>
      simp only [Gate.report, Ending.reported, verdict]
      exact ⟨rfl, rfl, false, trivial⟩
  | nothing =>
      simp only [Gate.report, Ending.reported, verdict]
      exact ⟨trivial, trivial, false, trivial⟩
  | failure =>
      simp only [Gate.report, Ending.reported, verdict]
      exact ⟨rfl, rfl, _, rfl⟩

end World

end Rehearsal

end Runbook
