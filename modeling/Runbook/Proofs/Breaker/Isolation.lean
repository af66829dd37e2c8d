import Runbook.Proofs.Breaker.Shelf

namespace Runbook

/-!
# Calls under one name do not see those under others

What the calls under a name learn, and how their breaker stands, is the same as in the run
in which only they move.  No name ever gets a second breaker, and a roster lists the names
that got one, each once and in their order.
-/

namespace Sharing

namespace Hall

/-- Two halls are the same as far as the calls under a name go. -/
structure SameFor (name : String) (first second : Hall Roster Unit) : Prop where
  kept : first.kept.SameAt name second.kept
  stands : ∀ number, first.stands ⟨name, number⟩ = second.stands ⟨name, number⟩

end Hall

namespace Keeper

variable {α : Type} {name : String} {first second : Hall Roster Unit} {step : Step α}

/-- A call learns the same in halls that are the same for its name, and leaves them so. -/
theorem advance_of_sameFor
    (same : first.SameFor name second)
    (isUnder : step.caller.name = name) :
    (byName.advance first step).1 = (byName.advance second step).1 ∧
      (byName.advance first step).2.SameFor name (byName.advance second step).2 := by
  subst isUnder
  have sameStand : first.stands step.caller = second.stands step.caller :=
    same.stands step.caller.number
  rcases act_of_sameAt same.kept step.move (first.stands step.caller) with
    ⟨isNone, isNoneToo⟩ | ⟨reply, next, firstLater, secondLater, acts, actsToo, sameLater⟩
  · rw [sameStand] at isNoneToo
    rw [advance_of_none isNone, advance_of_none isNoneToo]
    exact ⟨congrArg (Note.mk step none) same.kept.entry, same⟩
  · rw [sameStand] at actsToo
    rw [advance_of_some acts, advance_of_some actsToo]
    refine ⟨congrArg (Note.mk step (some reply)) sameLater.entry, sameLater,
      fun number => ?_⟩
    dsimp only
    by_cases isCaller : ⟨step.caller.name, number⟩ = step.caller
    · rw [isCaller, Function.update_self, Function.update_self]
    · rw [Function.update_of_ne isCaller, Function.update_of_ne isCaller]
      exact same.stands number

/-- A hall stays the same for a name when a call under another name moves. -/
theorem sameFor_advance
    (same : first.SameFor name second)
    (isOther : step.caller.name ≠ name) :
    (byName.advance first step).2.SameFor name second := by
  cases acts :
      byName.act step.caller.name first.kept step.move (first.stands step.caller) with
  | none =>
      rw [advance_of_none acts]
      exact same
  | some came =>
      have changesAt := changesAt_act acts
      rw [advance_of_some acts]
      refine ⟨⟨?_, ?_⟩, fun number => ?_⟩
      · exact changesAt.config_eq.trans same.kept.config
      · exact (changesAt.breaker?_of_ne isOther).trans same.kept.entry
      · have notCaller : (⟨name, number⟩ : Caller) ≠ step.caller :=
          fun isCaller => isOther (congrArg Caller.name isCaller).symm
        dsimp only
        rw [Function.update_of_ne notCaller]
        exact same.stands number

/-- The notes of the calls under a name are the same if only these calls move. -/
theorem filter_notes
    (steps : List (Step α))
    (same : first.SameFor name second) :
    (byName.notes steps first).filter (·.step.caller.name = name) =
        byName.notes (steps.filter (·.caller.name = name)) second ∧
      (byName.after steps first).SameFor name
        (byName.after (steps.filter (·.caller.name = name)) second) := by
  -- The induction is on the steps; the second run stands still while others move.
  induction steps generalizing first second with
  | nil =>
      exact ⟨rfl, same⟩
  | cons step rest inductionHypothesis =>
      by_cases isUnder : step.caller.name = name
      · obtain ⟨sameNote, sameLater⟩ := advance_of_sameFor same isUnder
        obtain ⟨sameNotes, sameAfter⟩ := inductionHypothesis sameLater
        have isKept : (byName.advance first step).1.step.caller.name = name := by
          rw [advance_fst_step, isUnder]
        rw [List.filter_cons_of_pos (by simpa using isUnder), notes, notes,
          List.filter_cons_of_pos (by simpa using isKept), sameNote, sameNotes]
        exact ⟨rfl, sameAfter⟩
      · obtain ⟨sameNotes, sameAfter⟩ :=
          inductionHypothesis (sameFor_advance same isUnder)
        have isDropped : ¬ (byName.advance first step).1.step.caller.name = name := by
          rw [advance_fst_step]
          exact isUnder
        rw [List.filter_cons_of_neg (by simpa using isUnder), notes,
          List.filter_cons_of_neg (by simpa using isDropped)]
        exact ⟨sameNotes, sameAfter⟩

theorem ordered_after
    {hall : Hall Roster Unit}
    (steps : List (Step α))
    (ordered : hall.kept.names.Pairwise (· < ·)) :
    (byName.after steps hall).kept.names.Pairwise (· < ·) := by
  induction steps generalizing hall with
  | nil =>
      exact ordered
  | cons step rest inductionHypothesis =>
      rw [after_cons]
      refine inductionHypothesis ?_
      cases acts :
          byName.act step.caller.name hall.kept step.move (hall.stands step.caller) with
      | none =>
          rw [advance_of_none acts]
          exact ordered
      | some came =>
          rw [advance_of_some acts]
          exact (changesAt_act acts).ordered ordered

end Keeper

namespace Hall

/-- A hall with a roster shows a hall with a shelf: the breakers, how far each call has come,
and that a call holds the breaker of its name. -/
structure Shows (first : Hall Shelf Nat) (second : Hall Roster Unit) : Prop where
  kept : first.kept.Shows second.kept
  stands : ∀ caller, (first.stands caller).forget = second.stands caller
  holds : ∀ caller place, (first.stands caller).breaker? = some place →
    first.kept.place? caller.name = some place

theorem shows_opened
    (config : BreakerConfig) :
    (opened { config := config } : Hall Shelf Nat).Shows
      (opened { config := config } : Hall Roster Unit) :=
  ⟨⟨rfl, fun _ _ => rfl, nofun⟩, fun _ => rfl, nofun⟩

end Hall

namespace Keeper

variable {α : Type} {shelved : Hall Shelf Nat} {hall : Hall Roster Unit} {step : Step α}

/-- A call learns the same in both halls, one still shows the other, and the only place
that is new, if any, is that of the breaker it found. -/
theorem advance_of_shows
    (shows_ : shelved.Shows hall)
    (step : Step α) :
    (byPlace.advance shelved step).1.forget = (byName.advance hall step).1 ∧
      (byPlace.advance shelved step).2.Shows (byName.advance hall step).2 ∧
        ∀ name place,
          (byPlace.advance shelved step).2.kept.place? name = some place ↔
            shelved.kept.place? name = some place ∨
              step.caller.name = name ∧
                (byPlace.advance shelved step).1.reply = some (.found place) := by
  have sameStand := shows_.stands step.caller
  rcases act_of_shows shows_.kept (shows_.holds step.caller) step.move with
    ⟨isNone, isNoneToo⟩ | ⟨reply, next, later, rosterLater, acts, actsToo, keeps⟩
  · rw [sameStand] at isNoneToo
    rw [advance_of_none isNone, advance_of_none isNoneToo]
    refine ⟨?_, shows_, fun name place => ?_⟩
    · exact congrArg (Note.mk step none) (snapshot_of_shows shows_.kept _)
    · simp
  · rw [sameStand] at actsToo
    rw [advance_of_some acts, advance_of_some actsToo]
    refine ⟨?_, ⟨keeps.shows_, fun caller => ?_, fun caller place isHeld => ?_⟩,
      fun name place => ?_⟩
    · exact congrArg (Note.mk step (some reply.forget)) (snapshot_of_shows keeps.shows_ _)
    · by_cases isCaller : caller = step.caller
      · simp [isCaller]
      · simp [isCaller, shows_.stands caller]
    · dsimp only at isHeld ⊢
      by_cases isCaller : caller = step.caller
      · rw [isCaller, Function.update_self] at isHeld
        rw [isCaller]
        exact keeps.holds place isHeld
      · rw [Function.update_of_ne isCaller] at isHeld
        exact (keeps.places ..).mpr (Or.inl (shows_.holds caller place isHeld))
    · rw [keeps.places name place, Option.some.injEq, eq_comm (a := name)]

/-- A name has a place in the end if it had one before or a call under it found its breaker
there. -/
theorem notes_of_shows
    (shows_ : shelved.Shows hall)
    (steps : List (Step α)) :
    (byPlace.notes steps shelved).map Note.forget = byName.notes steps hall ∧
      (byPlace.after steps shelved).Shows (byName.after steps hall) ∧
        ∀ name place,
          (byPlace.after steps shelved).kept.place? name = some place ↔
            shelved.kept.place? name = some place ∨
              ∃ note ∈ byPlace.notes steps shelved,
                note.step.caller.name = name ∧ note.reply = some (.found place) := by
  induction steps generalizing shelved hall with
  | nil =>
      refine ⟨rfl, shows_, fun name place => ?_⟩
      simp [notes, after]
  | cons step rest inductionHypothesis =>
      obtain ⟨sameNote, showsLater, places⟩ := advance_of_shows shows_ step
      obtain ⟨sameNotes, showsAfter, placesAfter⟩ := inductionHypothesis showsLater
      refine ⟨?_, showsAfter, fun name place => ?_⟩
      · rw [notes, notes, List.map_cons, sameNote, sameNotes]
      · rw [after_cons, placesAfter, places]
        simp only [notes, List.mem_cons, exists_eq_or_imp, advance_fst_step, or_assoc]

end Keeper

/-- What holds of the steps of calls that share breakers, all of them missing at first. -/
structure Isolated {α : Type} (config : BreakerConfig) (steps : List (Step α)) : Prop where
  /-- The calls under a name learn what they learn if only they move, and each time find
  their breaker the same. -/
  alone : ∀ name,
    (Keeper.byName.notes steps (.opened { config := config })).filter
        (·.step.caller.name = name) =
      Keeper.byName.notes (steps.filter (·.caller.name = name))
        (.opened { config := config })
  /-- At the end the breaker of a name is as if only the calls under it had moved. -/
  sameEntry : ∀ name,
    (Keeper.byName.after steps (.opened { config := config })).kept.breaker? name =
      (Keeper.byName.after (steps.filter (·.caller.name = name))
        (.opened { config := config })).kept.breaker? name
  /-- A call that holds on to the breaker it found learns what the roster says under its
  name. -/
  held :
    (Keeper.byPlace.notes steps (.opened { config := config })).map Note.forget =
      Keeper.byName.notes steps (.opened { config := config })
  /-- Two calls find the same breaker exactly if they are under the same name. -/
  one : ∀ first ∈ Keeper.byPlace.notes steps (.opened { config := config }),
    ∀ second ∈ Keeper.byPlace.notes steps (.opened { config := config }),
      ∀ place other, first.reply = some (.found place) → second.reply = some (.found other) →
        (place = other ↔ first.step.caller.name = second.step.caller.name)
  /-- The roster lists its names in their order, each once. -/
  ordered :
    (Keeper.byName.after steps (.opened { config := config })).kept.names.Pairwise (· < ·)
  /-- These are the names under which some call has found its breaker. -/
  listed : ∀ name,
    name ∈ (Keeper.byName.after steps (.opened { config := config })).kept.names ↔
      ∃ note ∈ Keeper.byName.notes steps (.opened { config := config }),
        note.step.caller.name = name ∧ note.reply = some (.found ())

/-- Calls under one name do not see those under others, in whatever order they move. -/
theorem isolated_of_steps
    {α : Type}
    (config : BreakerConfig)
    (steps : List (Step α)) :
    Isolated config steps := by
  obtain ⟨held, showsAfter, placesAfter⟩ :=
    Keeper.notes_of_shows (Hall.shows_opened config) steps
  have place_of_found (note : Note Nat α)
      (isNote : note ∈ Keeper.byPlace.notes steps (.opened { config := config }))
      (place : Nat) (isFound : note.reply = some (.found place)) :=
    (placesAfter note.step.caller.name place).mpr (Or.inr ⟨note, isNote, rfl, isFound⟩)
  have alone (name : String) :=
    Keeper.filter_notes steps
      (⟨⟨rfl, rfl⟩, fun _ => rfl⟩ : (Hall.opened { config := config }).SameFor name
        (Hall.opened { config := config }))
  refine ⟨fun name => (alone name).1, fun name => (alone name).2.kept.entry, held, ?_, ?_, ?_⟩
  · intro first isFirst second isSecond place other firstFound secondFound
    have firstPlace := place_of_found first isFirst place firstFound
    have secondPlace := place_of_found second isSecond other secondFound
    constructor
    · rintro rfl
      exact showsAfter.kept.name_eq firstPlace secondPlace
    · intro sameName
      rw [sameName, secondPlace] at firstPlace
      exact (Option.some.inj firstPlace).symm
  · exact Keeper.ordered_after steps (by exact .nil)
  · intro name
    have notPlaced (place : Nat) :
        ¬ (Hall.opened { config := config } : Hall Shelf Nat).kept.place? name =
          some place :=
      nofun
    simp only [showsAfter.kept.mem_names, placesAfter, notPlaced, false_or, ← held]
    constructor
    · rintro ⟨place, note, isNote, isUnder, isFound⟩
      refine ⟨note.forget, List.mem_map_of_mem isNote, isUnder, ?_⟩
      simp [Note.forget, isFound, Reply.forget]
    · rintro ⟨_, isForgottenNote, isUnder, isFound⟩
      obtain ⟨note, isNote, rfl⟩ := List.mem_map.mp isForgottenNote
      obtain ⟨reply, isReply, isForgotten⟩ := Option.map_eq_some_iff.mp isFound
      obtain ⟨place, rfl⟩ := Reply.forget_eq_found.mp isForgotten
      exact ⟨place, note, isNote, isUnder, isReply⟩

/-- Two calls that both find no breaker for their name get the same one, between them a call
under another name a different one. -/
example :
    (Keeper.byPlace.notes
        [⟨⟨"q", 0⟩, .look⟩, ⟨⟨"q", 1⟩, .look⟩, ⟨⟨"q", 1⟩, .fetch⟩, ⟨⟨"p", 0⟩, .look⟩,
          ⟨⟨"p", 0⟩, .fetch⟩, ⟨⟨"q", 0⟩, (.fetch : Move Unit)⟩]
        (.opened { config := {} })).map (·.reply) =
      [some .missing, some .missing, some (.found 0), some .missing, some (.found 1),
        some (.found 0)] := by
  decide

end Sharing

end Runbook
