import Runbook.Proofs.Breaker.Events
import Runbook.Rehearsal.Operation
import Runbook.Rehearsal.Studio

namespace Runbook

/-!
# Gates and their breakers

A gate belongs to a name.  It stands for the breaker of that name in a roster, which it
lets react to a request when it is asked and to a report when it is told how work has
ended.  That is all it does to the roster.  The gates of rehearsals are of this kind.
-/

namespace Roster

variable {roster : Roster} {name : String}

@[simp] theorem config_ask
    (roster : Roster)
    (name : String)
    (now : Instant) :
    (roster.ask name now).2.config = roster.config := by
  unfold ask
  split <;> rfl

/-- A name is refused with its own fault, when its breaker refuses. -/
theorem ask_fst
    (roster : Roster)
    (name : String)
    (now : Instant) :
    (roster.ask name now).1 =
      if (roster.get name).refuses now then some (.circuitOpen name) else none := by
  unfold ask
  split <;> rfl

/-- Asking for a name lets its breaker react to a request. -/
theorem get_ask
    (roster : Roster)
    (name : String)
    (now : Instant)
    (call : Nat) :
    (roster.ask name now).2.get name =
      (roster.get name).react roster.config ⟨call, now, .request⟩ := by
  have reacts := get_meet roster name name ⟨call, now, .request⟩
  rw [if_pos rfl] at reacts
  exact reacts

end Roster

namespace Gate

variable {σ α : Type} {gate : Gate σ} {name : String} {roster : σ → Roster}
  {clock : σ → Instant}

/-- A gate stands for the breaker of a name in the roster of a state, by its clock. -/
structure Guards
    (gate : Gate σ) (name : String) (roster : σ → Roster) (clock : σ → Instant) :
    Prop where
  refuses :
    ∀ state, (gate.ask state).1 = ((roster state).ask name (clock state)).1
  asks :
    ∀ state, roster (gate.ask state).2 = ((roster state).ask name (clock state)).2
  succeeds :
    ∀ state, roster (gate.succeed state) = (roster state).succeed name
  breaksDown :
    ∀ state, (gate.fail state).1 = ((roster state).fail name (clock state)).1
  fails :
    ∀ state, roster (gate.fail state).2 = ((roster state).fail name (clock state)).2

theorem guards_world
    (name : String) :
    (Rehearsal.World.gate name).Guards name Rehearsal.World.roster
      Rehearsal.World.breakerClock :=
  ⟨fun _ => rfl, fun _ => rfl, fun _ => rfl, fun _ => rfl, fun _ => rfl⟩

theorem guards_counted
    (name : String) :
    (Rehearsal.countedGate name).Guards name (·.1.roster) (·.1.breakerClock) :=
  ⟨fun _ => rfl, fun _ => rfl, fun _ => rfl, fun _ => rfl, fun _ => rfl⟩

theorem guards_studio
    (name : String) :
    (Rehearsal.Studio.gate name).Guards name (·.world.roster) (·.world.breakerClock) :=
  ⟨fun _ => rfl, fun _ => rfl, fun _ => rfl, fun _ => rfl, fun _ => rfl⟩

/-- A gate refuses with the fault of its name, when the breaker does. -/
theorem Guards.ask_fst
    (guards : gate.Guards name roster clock)
    (state : σ) :
    (gate.ask state).1 =
      if ((roster state).get name).refuses (clock state) then some (.circuitOpen name)
      else none := by
  rw [guards.refuses, Roster.ask_fst]

/-- A gate that is asked lets the breaker react to a request. -/
theorem Guards.get_ask
    (guards : gate.Guards name roster clock)
    (state : σ)
    (call : Nat) :
    (roster (gate.ask state).2).get name =
      ((roster state).get name).react (roster state).config
        ⟨call, clock state, .request⟩ := by
  rw [guards.asks, Roster.get_ask]

/-- A gate that is told of an ending lets the breaker react to the report. -/
theorem Guards.report_snd
    (guards : gate.Guards name roster clock)
    (ending : Ending α)
    (state : σ)
    (call : Nat) :
    roster (gate.report ending state).2 =
      (roster state).meet name ⟨call, clock state, .report (Verdict.of ending)⟩ := by
  unfold report
  cases Verdict.of ending with
  | success =>
      exact guards.succeeds state
  | failure =>
      exact guards.fails state
  | nothing =>
      rfl

theorem Guards.get_report
    (guards : gate.Guards name roster clock)
    (ending : Ending α)
    (state : σ)
    (call : Nat) :
    (roster (gate.report ending state).2).get name =
      ((roster state).get name).react (roster state).config
        ⟨call, clock state, .report (Verdict.of ending)⟩ := by
  rw [guards.report_snd ending state call, Roster.get_meet, if_pos rfl]

/-- Work ends as it does behind a gate too, unless it breaks down to count its failure. -/
theorem Guards.report_fst
    (guards : gate.Guards name roster clock)
    (ending : Ending α)
    (state : σ) :
    (gate.report ending state).1 =
      if Verdict.of ending = .failure ∧
          ((roster state).get name).failBreaksDown (roster state).config (clock state) = true
      then .brokeDown
      else ending := by
  unfold report
  cases Verdict.of ending with
  | success =>
      simp
  | failure =>
      simp only [guards.breaksDown, Roster.fail, true_and]
  | nothing =>
      simp

/-- Do some work behind a gate: it is done if the gate lets it pass, and then the gate is
told how it ended. -/
def execute (gate : Gate σ) (work : σ → Ending α × σ) (state : σ) : Ending α × σ :=
  match gate.ask state with
  | (some fault, state) => (.fault fault, state)
  | (none, state) =>
      let (ending, state) := work state
      gate.report ending state

/-- A retried operation behind a gate is one piece of work. -/
theorem run_eq_execute
    (gate : Gate σ)
    (policy : RetryPolicy)
    (around : Surroundings σ α) :
    gate.run policy around = gate.execute (Retry.run policy around) := by
  rfl

theorem execute_of_refused
    {state : σ}
    {fault : Fault}
    (isRefused : (gate.ask state).1 = some fault)
    (work : σ → Ending α × σ) :
    gate.execute work state = (.fault fault, (gate.ask state).2) := by
  simp only [execute]
  split
  · rename_i asked
    rw [asked] at isRefused ⊢
    cases isRefused
    rfl
  · rename_i asked
    rw [asked] at isRefused
    cases isRefused

theorem execute_of_passed
    {state : σ}
    (passes : (gate.ask state).1 = none)
    (work : σ → Ending α × σ) :
    gate.execute work state =
      gate.report (work (gate.ask state).2).1 (work (gate.ask state).2).2 := by
  simp only [execute]
  split
  · rename_i asked
    rw [asked] at passes
    cases passes
  · rename_i asked
    rw [asked]

end Gate

end Runbook
