import Mathlib.Data.String.Basic
import Mathlib.Logic.Function.Basic
import Runbook.Proofs.Breaker.Gates

namespace Runbook

/-!
# Calls that share breakers

Many calls are on their way at the same time, each under a name.  A call looks for the
breaker of its name and gets it, asks to pass, and in the end reports how its work ended;
between any two of its moves others may move.  How the breakers are kept is left open at
first.  Where a roster keeps them, the calls under a name are told the same, and find their
breaker the same, as if there were no calls under other names.
-/

namespace Roster

variable {roster later : Roster} {name other : String}

/-- The breaker of a name, if there is one. -/
def breaker? (roster : Roster) (name : String) : Option Breaker :=
  (roster.entries.find? (·.1 == name)).map (·.2)

/-- The names that have a breaker. -/
def names (roster : Roster) : List String :=
  roster.entries.map (·.1)

theorem get_eq_breaker?
    (roster : Roster)
    (name : String) :
    roster.get name = (roster.breaker? name).getD .fresh := by
  unfold get breaker?
  cases roster.entries.find? (·.1 == name) <;> rfl

theorem breaker?_update
    (roster : Roster)
    (name other : String)
    (change : Breaker → Breaker) :
    (roster.update name change).breaker? other =
      if name = other then some (change (roster.get name)) else roster.breaker? other := by
  by_cases isOther : name = other <;> simp [breaker?, update, find?_put, isOther]

theorem put_put
    (name : String)
    (breaker other : Breaker)
    (entries : List (String × Breaker)) :
    put name breaker (put name other entries) = put name breaker entries := by
  induction entries with
  | nil =>
      simp [put]
  | cons entry rest inductionHypothesis =>
      by_cases isName : name = entry.1
      · simp [put, isName]
      · by_cases isBefore : name < entry.1
        · simp [put, isName, isBefore]
        · simp [put, isName, isBefore, inductionHypothesis]

/-- Two changes at one name are one change. -/
theorem update_update
    (roster : Roster)
    (name : String)
    (first second : Breaker → Breaker) :
    (roster.update name first).update name second = roster.update name (second ∘ first) := by
  rw [update, get_update, if_pos rfl]
  simp only [update, put_put, Function.comp]

/-- Asking to pass asks for the breaker, too. -/
theorem ask_touch
    (roster : Roster)
    (name : String)
    (now : Instant) :
    (roster.touch name).ask name now = roster.ask name now := by
  have sameBreaker : (roster.touch name).get name = roster.get name := by
    rw [touch, get_update, if_pos rfl, id]
  have touchTwice : (roster.touch name).touch name = roster.touch name :=
    update_update roster name id id
  have touchFirst :
      (roster.touch name).update name Breaker.letThrough =
        roster.update name Breaker.letThrough :=
    update_update roster name id Breaker.letThrough
  simp only [ask, sameBreaker, touchTwice, touchFirst]

theorem mem_names_iff_breaker?
    (roster : Roster)
    (name : String) :
    name ∈ roster.names ↔ (roster.breaker? name).isSome = true := by
  simp [names, breaker?]

theorem mem_names_put
    {breaker : Breaker}
    {entries : List (String × Breaker)} :
    other ∈ (put name breaker entries).map (·.1) ↔
      other = name ∨ other ∈ entries.map (·.1) := by
  have found := mem_names_iff_breaker? ⟨{}, put name breaker entries⟩ other
  have foundBefore := mem_names_iff_breaker? ⟨{}, entries⟩ other
  simp only [names, breaker?, find?_put] at found foundBefore
  rw [found, foundBefore]
  by_cases isOther : name = other <;> simp [isOther, Ne.symm]

/-- Putting a breaker at the place of its name keeps the names in order. -/
theorem ordered_put
    {breaker : Breaker}
    {entries : List (String × Breaker)}
    (ordered : (entries.map (·.1)).Pairwise (· < ·)) :
    ((put name breaker entries).map (·.1)).Pairwise (· < ·) := by
  induction entries with
  | nil =>
      simp [put]
  | cons entry rest inductionHypothesis =>
      rw [List.map_cons, List.pairwise_cons] at ordered
      obtain ⟨isFirst, restOrdered⟩ := ordered
      unfold put
      split
      case isTrue isName =>
        rw [List.map_cons, List.pairwise_cons]
        exact ⟨fun later member => isName ▸ isFirst later member, restOrdered⟩
      case isFalse notName =>
        split
        case isTrue isBefore =>
          rw [List.map_cons, List.pairwise_cons, List.map_cons, List.pairwise_cons]
          refine ⟨fun later member => ?_, isFirst, restOrdered⟩
          rcases List.mem_cons.mp member with isEntry | inRest
          · exact isEntry ▸ isBefore
          · exact isBefore.trans (isFirst later inRest)
        case isFalse notBefore =>
          rw [List.map_cons, List.pairwise_cons]
          refine ⟨fun later member => ?_, inductionHypothesis restOrdered⟩
          rcases mem_names_put.mp member with isName | inRest
          · exact isName ▸ lt_of_le_of_ne (not_lt.mp notBefore) (Ne.symm notName)
          · exact isFirst later inRest

/-- A roster is changed at one name, and perhaps not at all. -/
inductive ChangesAt (name : String) (roster : Roster) : Roster → Prop where
  | stays :
      ChangesAt name roster roster
  | changes (change : Breaker → Breaker) :
      ChangesAt name roster (roster.update name change)

namespace ChangesAt

theorem config_eq
    (changesAt : ChangesAt name roster later) :
    later.config = roster.config := by
  cases changesAt <;> rfl

theorem breaker?_of_ne
    (changesAt : ChangesAt name roster later)
    (isOther : name ≠ other) :
    later.breaker? other = roster.breaker? other := by
  cases changesAt with
  | stays =>
      rfl
  | changes change =>
      rw [breaker?_update, if_neg isOther]

theorem ordered
    (changesAt : ChangesAt name roster later)
    (ordered : roster.names.Pairwise (· < ·)) :
    later.names.Pairwise (· < ·) := by
  cases changesAt with
  | stays =>
      exact ordered
  | changes change =>
      exact ordered_put ordered

end ChangesAt

/-- An event under a name changes the breaker of that name alone. -/
theorem changesAt_meet
    (roster : Roster)
    (name : String)
    (event : Breaker.Event) :
    ChangesAt name roster (roster.meet name event) := by
  unfold meet
  cases event.signal with
  | request =>
      simp only [ask]
      split <;> exact .changes _
  | report verdict =>
      cases verdict with
      | success =>
          exact .changes _
      | failure =>
          exact .changes _
      | nothing =>
          exact .stays

/-- Two rosters are the same as far as a name goes. -/
structure SameAt (name : String) (first second : Roster) : Prop where
  config : first.config = second.config
  entry : first.breaker? name = second.breaker? name

namespace SameAt

variable {first second : Roster}

theorem get
    (same : SameAt name first second) :
    first.get name = second.get name := by
  rw [get_eq_breaker?, get_eq_breaker?, same.entry]

theorem update
    {change changeToo : Breaker → Breaker}
    (same : SameAt name first second)
    (sameChange : change = changeToo) :
    SameAt name (first.update name change) (second.update name changeToo) := by
  refine ⟨same.config, ?_⟩
  rw [breaker?_update, breaker?_update, if_pos rfl, if_pos rfl, same.get, sameChange]

/-- How the breaker of a name reacts depends on that breaker alone. -/
theorem meet
    (same : SameAt name first second)
    (event : Breaker.Event) :
    SameAt name (first.meet name event) (second.meet name event) := by
  unfold Roster.meet
  cases event.signal with
  | request =>
      simp only [ask, same.get]
      split <;> exact same.update rfl
  | report verdict =>
      cases verdict with
      | success =>
          exact same.update (congrArg Breaker.succeed same.config)
      | failure =>
          exact same.update (congrArg (Breaker.fail · event.now) same.config)
      | nothing =>
          exact same

end SameAt

end Roster

namespace Sharing

variable {ρ π α : Type}

/-- One of the calls under a name. -/
structure Caller where
  name : String
  number : Nat
  deriving DecidableEq, Repr

/-- What a call does. -/
inductive Move (α : Type) where
  /-- It looks whether there is a breaker for its name. -/
  | look
  /-- It gets the breaker of its name, which is made if there is still none. -/
  | fetch
  /-- It reads the clock and asks to pass. -/
  | ask (now : Instant)
  /-- Its work ends; it reads the clock and reports how. -/
  | finish (now : Instant) (ending : Ending α)
  deriving DecidableEq

/-- A move of a call. -/
structure Step (α : Type) where
  caller : Caller
  move : Move α
  deriving DecidableEq

/-- What a call learns by a move, where `π` are the ways to get at a breaker. -/
inductive Reply (π α : Type) where
  | missing
  | found (breaker : π)
  | refused (fault : Fault)
  | passed
  | ended (ending : Ending α)
  deriving DecidableEq

/-- How far a call has come. -/
inductive Stand (π : Type) where
  | outside
  | missing
  | holds (breaker : π)
  | underway (breaker : π)
  | left
  deriving DecidableEq

/-- How breakers are kept in a state. -/
structure Keeper (ρ π : Type) where
  /-- The breaker of a name, if there is one. -/
  look : String → ρ → Option π
  /-- The breaker of a name, which is made if there is none. -/
  fetch : String → ρ → π × ρ
  /-- The gate of a breaker, for a call under a name that has read the clock. -/
  gate : String → π → Instant → Gate ρ
  /-- How the breaker of a name stands, if there is one. -/
  snapshot : String → ρ → Option Breaker

/-- The state of the breakers, and how far each call has come. -/
structure Hall (ρ π : Type) where
  kept : ρ
  stands : Caller → Stand π

/-- A step, what the call learned by it, and how the breaker of its name stood afterwards.
A step that is not the call's next one is passed over. -/
structure Note (π α : Type) where
  step : Step α
  reply : Option (Reply π α)
  snapshot : Option Breaker
  deriving DecidableEq

/-- No call has moved yet. -/
def Hall.opened (kept : ρ) : Hall ρ π := ⟨kept, fun _ => .outside⟩

namespace Keeper

/-- What comes of a move of a call: what it learns, how far it has come, and the breakers;
`none` if the move is not its next one. -/
def act (keeper : Keeper ρ π) (name : String) (kept : ρ) :
    Move α → Stand π → Option (Reply π α × Stand π × ρ)
  | .look, .outside =>
      match keeper.look name kept with
      | some breaker => some (.found breaker, .holds breaker, kept)
      | none => some (.missing, .missing, kept)
  | .fetch, .missing =>
      let fetched := keeper.fetch name kept
      some (.found fetched.1, .holds fetched.1, fetched.2)
  | .ask now, .holds breaker =>
      let asked := (keeper.gate name breaker now).ask kept
      match asked.1 with
      | some fault => some (.refused fault, .left, asked.2)
      | none => some (.passed, .underway breaker, asked.2)
  | .finish now ending, .underway breaker =>
      let reported := (keeper.gate name breaker now).report ending kept
      some (.ended reported.1, .left, reported.2)
  | _, _ => none

/-- Take a step. -/
def advance (keeper : Keeper ρ π) (hall : Hall ρ π) (step : Step α) :
    Note π α × Hall ρ π :=
  match keeper.act step.caller.name hall.kept step.move (hall.stands step.caller) with
  | none => (⟨step, none, keeper.snapshot step.caller.name hall.kept⟩, hall)
  | some (reply, stand, kept) =>
      (⟨step, some reply, keeper.snapshot step.caller.name kept⟩,
        ⟨kept, Function.update hall.stands step.caller stand⟩)

/-- The notes of steps, one after the other. -/
def notes (keeper : Keeper ρ π) : List (Step α) → Hall ρ π → List (Note π α)
  | [], _ => []
  | step :: rest, hall =>
      (keeper.advance hall step).1 :: keeper.notes rest (keeper.advance hall step).2

/-- What steps lead to. -/
def after (keeper : Keeper ρ π) (steps : List (Step α)) (hall : Hall ρ π) : Hall ρ π :=
  steps.foldl (fun hall step => (keeper.advance hall step).2) hall

variable {keeper : Keeper ρ π} {hall : Hall ρ π} {step : Step α}

theorem advance_fst_step
    (keeper : Keeper ρ π)
    (hall : Hall ρ π)
    (step : Step α) :
    (keeper.advance hall step).1.step = step := by
  unfold advance
  split <;> rfl

theorem advance_of_none
    (isNone :
      keeper.act step.caller.name hall.kept step.move (hall.stands step.caller) = none) :
    keeper.advance hall step =
      (⟨step, none, keeper.snapshot step.caller.name hall.kept⟩, hall) := by
  simp only [advance, isNone]

theorem advance_of_some
    {reply : Reply π α}
    {stand : Stand π}
    {later : ρ}
    (acts :
      keeper.act step.caller.name hall.kept step.move (hall.stands step.caller) =
        some (reply, stand, later)) :
    keeper.advance hall step =
      (⟨step, some reply, keeper.snapshot step.caller.name later⟩,
        ⟨later, Function.update hall.stands step.caller stand⟩) := by
  simp only [advance, acts]

theorem after_cons
    (keeper : Keeper ρ π)
    (step : Step α)
    (rest : List (Step α))
    (hall : Hall ρ π) :
    keeper.after (step :: rest) hall = keeper.after rest (keeper.advance hall step).2 := by
  rfl

/-- Breakers that are kept in a roster. -/
def byName : Keeper Roster Unit where
  look name roster := (roster.breaker? name).map fun _ => ()
  fetch name roster := ((), roster.touch name)
  gate name _ now :=
    { ask := fun roster => roster.ask name now
      succeed := fun roster => roster.succeed name
      fail := fun roster => roster.fail name now }
  snapshot name roster := roster.breaker? name

theorem guards_byName
    (name : String)
    (breaker : Unit)
    (now : Instant) :
    (byName.gate name breaker now).Guards name id (fun _ => now) :=
  ⟨fun _ => rfl, fun _ => rfl, fun _ => rfl, fun _ => rfl, fun _ => rfl⟩

theorem report_byName
    (name : String)
    (breaker : Unit)
    (now : Instant)
    (ending : Ending α)
    (roster : Roster) :
    ((byName.gate name breaker now).report ending roster).2 =
      roster.meet name ⟨0, now, .report (Verdict.of ending)⟩ :=
  (guards_byName name breaker now).report_snd ending roster 0

/-- A move of a call changes the roster at most at the call's name. -/
theorem changesAt_act
    {name : String}
    {roster later : Roster}
    {move : Move α}
    {stand next : Stand Unit}
    {reply : Reply Unit α}
    (acts : byName.act name roster move stand = some (reply, next, later)) :
    roster.ChangesAt name later := by
  cases move with
  | look =>
      cases stand <;> simp only [act, reduceCtorEq] at acts
      split at acts <;> cases acts <;> exact .stays
  | fetch =>
      cases stand <;> simp only [act, reduceCtorEq] at acts
      cases acts
      exact .changes id
  | ask now =>
      cases stand <;> simp only [act, reduceCtorEq] at acts
      split at acts <;> cases acts <;> exact roster.changesAt_meet name ⟨0, now, .request⟩
  | finish now ending =>
      cases stand <;> simp only [act, reduceCtorEq] at acts
      rename_i breaker
      cases acts
      rw [report_byName]
      exact roster.changesAt_meet name _

/-- What comes of a move under a name depends on the breaker of that name alone. -/
theorem act_of_sameAt
    {name : String}
    {first second : Roster}
    (same : first.SameAt name second)
    (move : Move α)
    (stand : Stand Unit) :
    (byName.act name first move stand = none ∧
        byName.act name second move stand = none) ∨
      ∃ reply next firstLater secondLater,
        byName.act name first move stand = some (reply, next, firstLater) ∧
          byName.act name second move stand = some (reply, next, secondLater) ∧
            firstLater.SameAt name secondLater := by
  cases move with
  | look =>
      cases stand
      case outside =>
        have sameLook : byName.look name first = byName.look name second := by
          simp only [byName, same.entry]
        refine Or.inr ?_
        simp only [act, sameLook]
        cases byName.look name second <;> exact ⟨_, _, _, _, rfl, rfl, same⟩
      all_goals exact Or.inl ⟨rfl, rfl⟩
  | fetch =>
      cases stand
      case missing =>
        exact Or.inr ⟨_, _, _, _, rfl, rfl, same.update rfl⟩
      all_goals exact Or.inl ⟨rfl, rfl⟩
  | ask now =>
      cases stand
      case holds breaker =>
        have guards := guards_byName name breaker now
        have sameFault :
            ((byName.gate name breaker now).ask first).1 =
              ((byName.gate name breaker now).ask second).1 := by
          rw [guards.ask_fst, guards.ask_fst, id, id, same.get]
        refine Or.inr ?_
        simp only [act, sameFault]
        cases ((byName.gate name breaker now).ask second).1 <;>
          exact ⟨_, _, _, _, rfl, rfl, same.meet ⟨0, now, .request⟩⟩
      all_goals exact Or.inl ⟨rfl, rfl⟩
  | finish now ending =>
      cases stand
      case underway breaker =>
        have guards := guards_byName name breaker now
        have sameEnding :
            ((byName.gate name breaker now).report ending first).1 =
              ((byName.gate name breaker now).report ending second).1 := by
          rw [guards.report_fst, guards.report_fst, id, id, same.get, same.config]
        have sameReport := same.meet ⟨0, now, .report (Verdict.of ending)⟩
        rw [← report_byName name breaker, ← report_byName name breaker] at sameReport
        refine Or.inr ?_
        simp only [act, sameEnding]
        exact ⟨_, _, _, _, rfl, rfl, sameReport⟩
      all_goals exact Or.inl ⟨rfl, rfl⟩

section Alone

variable {σ : Type} {gate : Gate σ} {roster : σ → Roster} {clock : σ → Instant}
  {hall : Hall Roster Unit} {caller : Caller}

/-- A call that has looked and fetched holds the breaker of its name; a roster does not tell
whether it did before the call asks. -/
theorem after_look_fetch
    (isOutside : hall.stands caller = .outside) :
    ∃ roster,
      byName.after [⟨caller, .look⟩, ⟨caller, (.fetch : Move α)⟩] hall =
          ⟨roster, Function.update hall.stands caller (.holds ())⟩ ∧
        ∀ now, roster.ask caller.name now = hall.kept.ask caller.name now := by
  cases isEntry : hall.kept.breaker? caller.name with
  | some breaker =>
      refine ⟨hall.kept, ?_, fun _ => rfl⟩
      simp [after, advance, act, byName, isOutside, isEntry]
  | none =>
      refine ⟨hall.kept.touch caller.name, ?_, hall.kept.ask_touch caller.name⟩
      simp [after, advance, act, byName, isOutside, isEntry]

/-- The moves of a call, when no other call moves between them. -/
def moves (caller : Caller) (asked finished : Instant) (ending : Ending α) :
    List (Step α) :=
  [⟨caller, .look⟩, ⟨caller, .fetch⟩, ⟨caller, .ask asked⟩,
    ⟨caller, .finish finished ending⟩]

/-- A call that no other comes between does to the roster what its work behind a gate
does. -/
theorem kept_after_moves
    (guards : gate.Guards caller.name roster clock)
    {work : σ → Ending α × σ}
    {state : σ}
    (leavesRoster : roster (work (gate.ask state).2).2 = roster (gate.ask state).2)
    (isOutside : hall.stands caller = .outside)
    (isKept : hall.kept = roster state) :
    (byName.after
        (moves caller (clock state) (clock (work (gate.ask state).2).2)
          (work (gate.ask state).2).1) hall).kept =
      roster (gate.execute work state).2 := by
  obtain ⟨found, isFound, sameAsk⟩ := after_look_fetch (α := α) isOutside
  have asked :
      found.ask caller.name (clock state) =
        ((gate.ask state).1, roster (gate.ask state).2) := by
    rw [sameAsk, isKept, guards.refuses, guards.asks]
  have isSplit (finish : Step α) :
      byName.after
          [⟨caller, .look⟩, ⟨caller, .fetch⟩, ⟨caller, .ask (clock state)⟩, finish] hall =
        (byName.advance
          (byName.advance ⟨found, Function.update hall.stands caller (.holds ())⟩
            (⟨caller, .ask (clock state)⟩ : Step α)).2 finish).2 := by
    rw [← isFound]
    rfl
  rw [moves, isSplit]
  cases isAsked : (gate.ask state).1 with
  | some fault =>
      rw [Gate.execute_of_refused isAsked]
      simp [advance, act, byName, asked, isAsked]
  | none =>
      rw [Gate.execute_of_passed isAsked, guards.report_snd _ _ 0, leavesRoster,
        ← report_byName caller.name ()]
      simp [advance, act, byName, asked, isAsked]

end Alone

end Keeper

end Sharing

end Runbook
