import Runbook.Proofs.Rehearsal.Invocation

namespace Runbook.Rehearsal

/-!
# Rehearsing one call alone

A call alone is carried through: its invocation is taken as far as it gets, and the clock
moves to the next instant at which it goes on.  Each time it has less to wait for, so it
comes to its end, and by moves that are open to it.
-/

/-- How often an invocation may still have to wait: at most twice for an attempt, for the
tool and then for the time limit, and once for the rest before it. -/
def waits (attempts : Nat) : Stage String → Option Wait → Nat
  | .attempting attempt, some (.flight flight) =>
      3 * (attempts + 1 - attempt) + if flight.readyAt.isSome then 2 else 1
  | .attempting attempt, _ => 3 * (attempts + 1 - attempt) + 2
  | .resting attempt, _ => 3 * (attempts + 1 - attempt) + 3
  | .ended _, _ => 0

/-- Whether what an invocation waits for has come. -/
def IsDue (context : Nat) (wait : Wait) (world : World) : Prop :=
  wait.next ≤ world.now ∨ world.ended context ≠ none

theorem waits_afterAttempt_le
    (policy : RetryPolicy)
    (attempt : Nat)
    (ending : Ending String) :
    waits policy.attempts (Stage.afterAttempt policy attempt ending) none ≤
      3 * (policy.attempts + 1 - attempt) := by
  unfold Stage.afterAttempt
  split
  · exact Nat.zero_le _
  · exact Nat.zero_le _
  · split
    · exact Nat.zero_le _
    · split
      · simp only [waits]
        omega
      · split <;> exact Nat.zero_le _

theorem waits_enter_le
    (attempts attempt : Nat)
    (ended : Option Fault) :
    waits attempts (.enter attempt ended) none ≤ 3 * (attempts + 1 - attempt) + 2 := by
  cases ended with
  | none =>
      exact Nat.le_refl _
  | some fault =>
      exact Nat.zero_le _

/-- An attempt that is under way has something to wait for. -/
theorem waits_flight_pos
    (attempts attempt : Nat)
    (flight : Flight) :
    3 * (attempts + 1 - attempt) <
      waits attempts (.attempting attempt) (some (.flight flight)) := by
  simp only [waits]
  split <;> omega

theorem waits_flight_le
    (attempts attempt : Nat)
    (flight : Flight) :
    waits attempts (.attempting attempt) (some (.flight flight)) ≤
      3 * (attempts + 1 - attempt) + 2 := by
  simp only [waits]
  split <;> omega

theorem waits_of_no_flight
    {wait : Option Wait}
    (notFlight : ∀ flight, wait = some (.flight flight) → False)
    (attempts attempt : Nat) :
    waits attempts (.attempting attempt) wait = 3 * (attempts + 1 - attempt) + 2 := by
  match wait with
  | none =>
      rfl
  | some (.rest _) =>
      rfl
  | some (.flight flight) =>
      exact (notFlight flight rfl).elim

/-- An attempt goes on while the context does and its time limit has not come; once the
tool was ready it is only the limit that it waits for. -/
theorem goesOn_of_lookAtFlight
    {context : Nat}
    {invocation : Invocation}
    {flight later : Flight}
    {world after : World}
    (looked : world.lookAtFlight context invocation flight = (.inr later, after)) :
    world.ended context = none ∧ ¬ flight.limit ≤ world.now ∧
      later = { flight with
        readyAt :=
          if ContextTree.hasCome world.now flight.readyAt then none
          else flight.readyAt } := by
  cases ended : world.ended context with
  | some fault =>
      simp only [World.lookAtFlight, World.done_eq_ended, ended] at looked
      cases looked
  | none =>
      have sameNow : (world.afterFlight context flight).now = world.now := by
        unfold World.afterFlight
        split <;> rfl
      rw [World.lookAtFlight_of_none ended] at looked
      dsimp only at looked
      split at looked
      case h_1 =>
        cases looked
      case h_2 =>
        rw [sameNow] at looked
        split at looked
        case isTrue =>
          cases looked
        case isFalse notLate =>
          cases looked
          exact ⟨rfl, notLate, rfl⟩

/-- Whoever looks at an attempt that goes on has no more to wait for than before, and less
if something was due. -/
theorem waits_of_lookAtFlight
    {context : Nat}
    {invocation : Invocation}
    {flight later : Flight}
    {world after : World}
    (looked : world.lookAtFlight context invocation flight = (.inr later, after))
    (attempts attempt : Nat) :
    waits attempts (.attempting attempt) (some (.flight later)) ≤
        waits attempts (.attempting attempt) (some (.flight flight)) ∧
      (IsDue context (.flight flight) world →
        waits attempts (.attempting attempt) (some (.flight later)) <
          waits attempts (.attempting attempt) (some (.flight flight))) := by
  obtain ⟨goesOn, notLate, isLater⟩ := goesOn_of_lookAtFlight looked
  cases ready : flight.readyAt with
  | none =>
      have notDue : ¬ IsDue context (.flight flight) world := by
        rintro (come | hasEnded)
        · simp only [Wait.next, ready, earliest, Option.getD_some] at come
          exact notLate come
        · exact hasEnded goesOn
      rw [isLater]
      simp [waits, ready, notDue]
  | some instant =>
      by_cases come : instant ≤ world.now
      · rw [isLater]
        simp [waits, ready, come, ContextTree.hasCome]
      · have notDue : ¬ IsDue context (.flight flight) world := by
          rintro (isOver | hasEnded)
          · simp only [Wait.next, ready, earliest, Option.getD_some] at isOver
            rcases min_le_iff.mp isOver with first | second
            · exact come first
            · exact notLate second
          · exact hasEnded goesOn
        rw [isLater]
        simp [waits, ready, come, ContextTree.hasCome, notDue]

/-- However far an invocation is taken, it has no more to wait for than before. -/
theorem waits_advance_le
    (setup : Setup)
    (context : Nat)
    (invocation : Invocation)
    (fuel : Nat)
    (stage : Stage String)
    (wait : Option Wait)
    (world : World) :
    let after := advance setup context invocation fuel stage wait world
    waits setup.policy.attempts after.1 after.2.1 ≤
      waits setup.policy.attempts stage wait := by
  fun_induction advance setup context invocation fuel stage wait world with
  | case1 stage wait world =>
      exact Nat.le_refl _
  | case2 fuel ending wait world =>
      exact Nat.le_refl _
  | case3 fuel attempt flight world later after looked =>
      exact (waits_of_lookAtFlight looked _ _).1
  | case4 fuel attempt flight world outcome after looked next inductionHypothesis =>
      have next_le :=
        waits_afterAttempt_le setup.policy attempt (outcome.ending invocation.name)
      have positive := waits_flight_pos setup.policy.attempts attempt flight
      exact inductionHypothesis.trans (next_le.trans positive.le)
  | case5 fuel attempt wait world notFlight after begun =>
      exact Nat.zero_le _
  | case6 fuel attempt wait world notFlight flight after begun inductionHypothesis =>
      rw [waits_of_no_flight notFlight]
      exact inductionHypothesis.trans
        (waits_flight_le setup.policy.attempts attempt flight)
  | case7 fuel attempt until_ world fault ended =>
      exact Nat.zero_le _
  | case8 fuel attempt until_ world ended isOver inductionHypothesis =>
      refine inductionHypothesis.trans ?_
      simp [waits]
  | case9 fuel attempt until_ world ended goesOn =>
      exact Nat.le_refl _
  | case10 fuel attempt wait world notRest fault ended =>
      exact Nat.zero_le _
  | case11 fuel attempt wait world notRest ended delay sleeps inductionHypothesis =>
      exact inductionHypothesis
  | case12 fuel attempt wait world notRest ended delay notSleeps after inductionHypothesis =>
      have entered :=
        waits_enter_le setup.policy.attempts attempt (after.ended context)
      refine inductionHypothesis.trans (entered.trans ?_)
      simp [waits]

/-- An invocation that is taken on when it is due has less to wait for than before. -/
theorem waits_advance_lt
    (setup : Setup)
    {context : Nat}
    (invocation : Invocation)
    (fuel : Nat)
    {stage : Stage String}
    {wait : Wait}
    {world : World}
    (suits : Wait.suits stage (some wait) = true)
    (isDue : IsDue context wait world) :
    let after := advance setup context invocation (fuel + 1) stage (some wait) world
    waits setup.policy.attempts after.1 after.2.1 <
      waits setup.policy.attempts stage (some wait) := by
  match stage, wait, suits with
  | .attempting attempt, .flight flight, _ =>
      cases looked : world.lookAtFlight context invocation flight with
      | mk outcome after =>
          cases outcome with
          | inr later =>
              simp only [advance, looked]
              exact (waits_of_lookAtFlight looked _ _).2 isDue
          | inl outcome =>
              simp only [advance, looked]
              have positive := waits_flight_pos setup.policy.attempts attempt flight
              exact (waits_advance_le _ _ _ _ _ _ _).trans_lt
                ((waits_afterAttempt_le _ _ _).trans_lt positive)
  | .resting attempt, .rest until_, _ =>
      cases ended : world.ended context with
      | some fault =>
          simp [advance, World.done_eq_ended, ended, waits]
      | none =>
          have isOver : until_ ≤ world.now := by
            rcases isDue with come | hasEnded
            · exact come
            · exact (hasEnded ended).elim
          simp only [advance, World.done_eq_ended, ended, isOver, if_true]
          refine (waits_advance_le _ _ _ _ _ _ _).trans_lt ?_
          simp [waits]

/-- When the clock moves to the next instant that matters, an invocation is due. -/
theorem isDue_goTo
    {context : Nat}
    {wait : Wait}
    {world : World}
    {instant : Instant}
    (next : earliest (some wait.next) (world.contextEnd? context) = some instant) :
    IsDue context wait (world.goTo instant) := by
  have come :
      ContextTree.hasCome (world.goTo instant).now
        (earliest (some wait.next) (world.contextEnd? context)) = true := by
    rw [next]
    simp [ContextTree.hasCome, World.goTo]
  rw [ContextTree.hasCome_earliest, Bool.or_eq_true] at come
  rcases come with waited | ended
  · exact Or.inl (by simpa [ContextTree.hasCome] using waited)
  · exact Or.inr (ContextTree.ended_of_hasCome_endsAt? ended)

/-- An invocation that has to wait is taken on at the next instant that matters. -/
theorem exists_carryThrough
    {setup : Setup}
    {context : Nat}
    {invocation : Invocation}
    {stage later : Stage String}
    {wait laterWait : Option Wait}
    {world after : World}
    (fuel : Nat)
    (advanced :
      advance setup context invocation (advanceFuel setup) stage wait world =
        (later, laterWait, after))
    (suits : Wait.suits later laterWait = true) :
    ∃ (awaited : Wait) (instant : Instant),
      laterWait = some awaited ∧
        earliest (some awaited.next) (after.contextEnd? context) = some instant ∧
          carryThrough setup context invocation (fuel + 1) stage wait world =
            carryThrough setup context invocation fuel later laterWait
              (after.goTo instant) := by
  cases laterWait with
  | none =>
      rw [suits_none] at suits
      cases suits
  | some awaited =>
      obtain ⟨instant, next⟩ :
          ∃ instant,
            earliest (some awaited.next) (after.contextEnd? context) = some instant := by
        cases after.contextEnd? context <;> exact ⟨_, rfl⟩
      refine ⟨awaited, instant, rfl, next, ?_⟩
      cases later with
      | ended ending =>
          cases suits
      | attempting attempt =>
          simp only [carryThrough, advanced, Option.map_some, next]
      | resting attempt =>
          simp only [carryThrough, advanced, Option.map_some, next]

/-- With more turns than it still has to wait, an invocation is carried through to its end,
by moves that are open to it, no matter what reporting its ending comes to. -/
theorem reaches_carryThrough
    (setup : Setup)
    {context : Nat}
    (invocation : Invocation)
    (breaksDown : Bool)
    (fuel : Nat)
    {stage : Stage String}
    {wait : Option Wait}
    {world : World}
    (inTree : context < world.tree.size)
    (mayAttempt : ∀ attempt, stage = .attempting attempt →
      Wait.suits stage wait = true ∨ world.ended context = none)
    (enough :
      let after := advance setup context invocation (advanceFuel setup) stage wait world
      waits setup.policy.attempts after.1 after.2.1 < fuel) :
    let carried := carryThrough setup context invocation fuel stage wait world
    Standing.Reaches setup.policy invocation.name
      ⟨world.ended context, stage.reported breaksDown⟩
      ⟨carried.2.ended context, .ended (carried.1.reported breaksDown)⟩ := by
  induction fuel generalizing stage wait world with
  | zero =>
      exact (Nat.not_lt_zero _ enough).elim
  | succ fuel inductionHypothesis =>
      obtain ⟨sameSize, reaches⟩ :=
        reaches_advance setup invocation breaksDown (advanceFuel setup) stage wait world
          inTree mayAttempt
      have rests :=
        rests_advance setup context invocation (advanceFuel setup) stage wait world
          (needed_le setup.policy.attempts stage wait)
      cases advanced :
          advance setup context invocation (advanceFuel setup) stage wait world with
      | mk later rest =>
          obtain ⟨laterWait, after⟩ := rest
          simp only [advanced] at sameSize reaches rests enough
          rcases rests with ⟨ending, isEnded⟩ | suits
          · rw [isEnded] at advanced reaches
            simp only [carryThrough, advanced]
            exact reaches
          · obtain ⟨awaited, instant, isAwaited, next, goesOn⟩ :=
              exists_carryThrough fuel advanced suits
            have isDue := isDue_goTo next
            have leads := World.leads_goTo context after instant
            have less : waits setup.policy.attempts later laterWait < fuel + 1 :=
              enough
            rw [isAwaited] at suits less
            have fewer :=
              waits_advance_lt setup invocation (4 * setup.policy.attempts + 7) suits isDue
            have inTreeLater : context < (after.goTo instant).tree.size := by
              rw [leads.sameSize, sameSize]
              exact inTree
            rw [goesOn, isAwaited]
            exact (reaches.trans (Standing.reaches_of_goes leads.goes _)).trans
              (inductionHypothesis inTreeLater (fun _ _ => Or.inl suits)
                (fewer.trans_le (Nat.le_of_lt_succ less)))

end Runbook.Rehearsal

namespace Runbook

namespace Conduct

variable {policy : RetryPolicy}

/-- What happens to an invocation may happen to a call alone. -/
theorem reaches_of_standing
    {call : Call}
    {first last : Standing}
    (reaches : Standing.Reaches policy call.name first last) :
    Reaches policy
      (alone { call := call, stage := some first.stage, ended := first.ended })
      (alone { call := call, stage := some last.stage, ended := last.ended }) := by
  induction reaches with
  | refl =>
      exact .refl
  | tail _ moves inductionHypothesis =>
      cases moves with
      | proceed proceeds =>
          exact inductionHypothesis.tail (.step (.alone (.proceed rfl proceeds)))
      | outside ends =>
          exact inductionHypothesis.tail (.aloneOutside ends)

end Conduct

namespace Rehearsal.World

/-- What a rehearsal makes of a call alone may be made of it. -/
theorem reaches_invoke
    (setup : Setup)
    {context : Nat}
    (call : Call)
    {world : World}
    (inTree : context < world.tree.size) :
    let invoked := invoke setup context call.name call.input world
    Conduct.Reaches setup.policy
      (.alone { call := call, ended := world.ended context })
      (.alone {
        call := call
        stage := some (.ended invoked.1)
        ended := invoked.2.ended context }) := by
  obtain ⟨sameTree, sameNow, opens⟩ :=
    opens_openInvocation context call.name call.input world
  cases opened : world.openInvocation context call.name call.input with
  | mk opening later =>
      simp only [opened] at sameTree sameNow opens
      have sameEnd : later.ended context = world.ended context := by
        simp only [World.ended, sameTree, sameNow]
      rcases opens with ⟨fault, isRefused, refused⟩ | ⟨tool, isAdmitted⟩
      · simp only [invoke, opened, isRefused, sameEnd]
        exact .single (.step (.alone (.begin rfl refused)))
      · have inTreeLater : context < later.tree.size := by
          rw [sameTree]
          exact inTree
        let invocation : Invocation := ⟨call.name, tool, call.input⟩
        let carried :=
          carryThrough setup context invocation (4 * setup.policy.attempts + 8)
            (.enter 1 (world.ended context)) none later
        obtain ⟨reportedTree, reportedNow, breaksDown, isReported⟩ :=
          exists_reported call.name carried.1 carried.2
        have reportedEnd :
            ((gate call.name).report carried.1 carried.2).2.ended context =
              carried.2.ended context := by
          simp only [World.ended, reportedTree, reportedNow]
        have enough :=
          (waits_advance_le setup context invocation (advanceFuel setup)
            (.enter 1 (world.ended context)) none later).trans
            (waits_enter_le setup.policy.attempts 1 (world.ended context))
        have through :=
          reaches_carryThrough setup invocation breaksDown (4 * setup.policy.attempts + 8)
            inTreeLater
            (fun _ isAttempt => Or.inr (sameEnd.trans (ended_of_enter isAttempt)))
            (Nat.lt_of_le_of_lt enough (by omega))
        rw [reported_enter, sameEnd] at through
        simp only [invoke, opened, isAdmitted]
        rw [reportedEnd, isReported]
        exact (Conduct.reaches_of_standing through).head
          (.step (.alone (.begin rfl .admitted)))

end Rehearsal.World

end Runbook
