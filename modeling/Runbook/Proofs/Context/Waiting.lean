import Runbook.Proofs.Context.Lineage

namespace Runbook

/-!
# Contexts over time

A wait for the end of a context goes on while other things are done and time passes.  It is
over at the first moment at which the context has ended, and gives the reason that the
context gives then.
-/

namespace Rehearsal.World

variable {world moment : World} {acts : List ContextAct} {id : Nat}

/-- The moments on the way through some acts: those between two acts, and every instant of
the time that passes. -/
inductive Passes : World → List ContextAct → World → Prop where
  | here {world : World} {acts : List ContextAct} :
      Passes world acts world
  | meanwhile {world : World} {duration : Duration} {rest : List ContextAct}
      {instant : Instant} :
      world.now ≤ instant →
      instant ≤ world.now + duration →
      Passes world (.advance duration :: rest) (world.goTo instant)
  | onward {world moment : World} {act : ContextAct} {rest : List ContextAct} :
      Passes (world.perform act) rest moment →
      Passes world (act :: rest) moment

/-- A wait is over at the first moment at which a context has ended, for its reason then. -/
structure FirstEnd (id : Nat) (world : World) (acts : List ContextAct) (fault : Fault)
    (later : World) : Prop where
  passes :
    world.Passes acts later
  ended :
    later.ended id = some fault
  first :
    ∀ moment, world.Passes acts moment → moment.ended id ≠ none → later.now ≤ moment.now

theorem now_le_perform
    (world : World)
    (act : ContextAct) :
    world.now ≤ (world.perform act).now := by
  cases act with
  | new =>
      exact Nat.le_refl _
  | child parent =>
      rw [perform]
      split
      · exact Nat.le_refl _
      · exact Nat.le_refl _
  | withTimeout parent timeout =>
      rw [perform]
      split
      · split
        · exact Nat.le_refl _
        · exact Nat.le_refl _
      · exact Nat.le_refl _
  | cancel id =>
      exact Nat.le_refl _
  | advance duration =>
      exact Nat.le_max_left _ _

theorem Passes.now_le
    (passes : world.Passes acts moment) :
    world.now ≤ moment.now := by
  induction passes with
  | here =>
      exact Nat.le_refl _
  | meanwhile isLater _ =>
      exact Nat.le_max_left _ _
  | onward _ inductionHypothesis =>
      exact (now_le_perform _ _).trans inductionHypothesis

/-- The moments on the way through no acts. -/
theorem passes_nil_iff :
    world.Passes [] moment ↔ moment = world := by
  constructor
  · intro passes
    cases passes with
    | here =>
        rfl
  · rintro rfl
    exact .here

/-- The moments on the way through an act that takes no time and what follows. -/
theorem passes_cons_iff
    {act : ContextAct}
    (isInstant : ∀ duration, act ≠ .advance duration) :
    world.Passes (act :: acts) moment ↔
      moment = world ∨ (world.perform act).Passes acts moment := by
  constructor
  · intro passes
    cases passes with
    | here =>
        exact Or.inl rfl
    | meanwhile _ _ =>
        exact absurd rfl (isInstant _)
    | onward passes =>
        exact Or.inr passes
  · rintro (rfl | passes)
    · exact .here
    · exact .onward passes

/-- The moments on the way through time that passes and what follows. -/
theorem passes_advance_iff
    {duration : Duration} :
    world.Passes (.advance duration :: acts) moment ↔
      (∃ instant, world.now ≤ instant ∧ instant ≤ world.now + duration ∧
          moment = world.goTo instant) ∨
        (world.goTo (world.now + duration)).Passes acts moment := by
  constructor
  · intro passes
    cases passes with
    | here =>
        refine Or.inl ⟨world.now, Nat.le_refl _, Nat.le_add_right _ _, ?_⟩
        simp [goTo]
    | meanwhile isLater notAfter =>
        exact Or.inl ⟨_, isLater, notAfter, rfl⟩
    | onward passes =>
        exact Or.inr passes
  · rintro (⟨instant, isLater, notAfter, rfl⟩ | passes)
    · exact .meanwhile isLater notAfter
    · exact .onward passes

/-- While only time passes, a context has ended when the instant has come at which it ends. -/
theorem ended_goTo_iff
    {instant : Instant}
    (isLater : world.now ≤ instant) :
    (world.goTo instant).ended id ≠ none ↔
      ∃ limit, world.contextEnd? id = some limit ∧ limit ≤ instant := by
  have isNow : (world.goTo instant).now = instant := Nat.max_eq_right isLater
  have hasCome :
      (world.goTo instant).ended id ≠ none ↔
        ContextTree.hasCome instant (world.tree.endsAt? id) = true := by
    rw [World.ended, isNow]
    exact ⟨ContextTree.hasCome_endsAt?_of_ended, ContextTree.ended_of_hasCome_endsAt?⟩
  rw [hasCome, contextEnd?]
  cases world.tree.endsAt? id with
  | none =>
      simp [ContextTree.hasCome]
  | some limit =>
      simp [ContextTree.hasCome]

/-- While only time passes, a context has not ended before the instant at which it ends. -/
theorem ended_goTo_eq_none
    {instant : Instant}
    (isLater : world.now ≤ instant)
    (notOver : ∀ limit, world.contextEnd? id = some limit → instant < limit) :
    (world.goTo instant).ended id = none := by
  by_contra hasEnded
  obtain ⟨limit, isLimit, isOver⟩ := (ended_goTo_iff isLater).mp hasEnded
  exact absurd isOver (Nat.not_le.mpr (notOver limit isLimit))

/-- A wait of some length is cut short at the first instant at which the context has ended. -/
theorem waitUntil_eq
    (id : Nat)
    {until_ : Instant}
    (isLater : world.now ≤ until_) :
    (∃ instant fault,
      world.now ≤ instant ∧ instant ≤ until_ ∧
        world.waitUntil id until_ = (some fault, world.goTo instant) ∧
          (world.goTo instant).ended id = some fault ∧
            ∀ earlier, world.now ≤ earlier → earlier < instant →
              (world.goTo earlier).ended id = none) ∨
      (world.waitUntil id until_ = (none, world.goTo until_) ∧
        ∀ instant, world.now ≤ instant → instant ≤ until_ →
          (world.goTo instant).ended id = none) := by
  have isHere : world.goTo world.now = world := by
    simp [goTo]
  cases hasEnded : world.ended id with
  | some fault =>
      refine Or.inl ⟨world.now, fault, Nat.le_refl _, isLater, ?_, by rw [isHere, hasEnded], ?_⟩
      · simp [waitUntil, done_eq_ended, hasEnded, isHere]
      · exact fun earlier notBefore isBefore => absurd isBefore (Nat.not_lt.mpr notBefore)
  | none =>
      cases isEnd : world.contextEnd? id with
      | none =>
          have notEnded : ∀ instant, world.now ≤ instant → instant ≤ until_ →
              (world.goTo instant).ended id = none :=
            fun instant isAfter _ => ended_goTo_eq_none isAfter (by simp [isEnd])
          refine Or.inr ⟨?_, notEnded⟩
          simp [waitUntil, pass, done_eq_ended, hasEnded, isEnd,
            notEnded until_ isLater (Nat.le_refl _)]
      | some limit =>
          have isAhead : world.now < limit := by
            by_contra isOver
            have endedNow :=
              (ended_goTo_iff (Nat.le_refl world.now)).mpr ⟨limit, isEnd, Nat.not_lt.mp isOver⟩
            rw [isHere, hasEnded] at endedNow
            exact endedNow rfl
          have notBefore : ∀ instant, world.now ≤ instant → instant < limit →
              (world.goTo instant).ended id = none := by
            intro instant isAfter isBefore
            refine ended_goTo_eq_none isAfter fun other isOther => ?_
            rw [isEnd, Option.some.injEq] at isOther
            exact isOther ▸ isBefore
          by_cases isCut : limit ≤ until_
          · obtain ⟨fault, isFault⟩ := Option.ne_none_iff_exists'.mp
              ((ended_goTo_iff isAhead.le).mpr ⟨limit, isEnd, Nat.le_refl _⟩)
            refine Or.inl ⟨limit, fault, isAhead.le, isCut, ?_, isFault, notBefore⟩
            simp [waitUntil, pass, done_eq_ended, hasEnded, isEnd, Nat.min_eq_left isCut, isFault]
          · have isLonger : until_ < limit := Nat.not_le.mp isCut
            refine Or.inr ⟨?_, fun instant isAfter isBefore =>
              notBefore instant isAfter (isBefore.trans_lt isLonger)⟩
            simp [waitUntil, pass, done_eq_ended, hasEnded, isEnd, Nat.min_eq_right isLonger.le,
              notBefore until_ isLater isLonger]

/-- What a wait gives: it is over at the first moment at which the context has ended, or there
is no such moment. -/
structure Awaited (id : Nat) (world : World) (acts : List ContextAct)
    (result : Option Fault × World) : Prop where
  stops :
    ∀ fault, result.1 = some fault → world.FirstEnd id acts fault result.2
  pending :
    result.1 = none → ∀ moment, world.Passes acts moment → moment.ended id = none

/-- A context that has ended when the wait begins is awaited at once. -/
theorem awaited_of_ended
    {fault : Fault}
    (hasEnded : world.ended id = some fault)
    (acts : List ContextAct) :
    world.Awaited id acts (some fault, world) := by
  refine ⟨?_, nofun⟩
  rintro _ ⟨⟩
  exact ⟨.here, hasEnded, fun _ passes _ => passes.now_le⟩

/-- A wait that is not over before an act goes on after it. -/
theorem Awaited.onward
    {act : ContextAct}
    {result : Option Fault × World}
    (awaited : (world.perform act).Awaited id acts result)
    (notBefore : ∀ moment, world.Passes (act :: acts) moment →
      moment.ended id = none ∨ (world.perform act).Passes acts moment) :
    world.Awaited id (act :: acts) result := by
  refine ⟨fun fault isOver => ?_, fun isPending moment passes => ?_⟩
  · obtain ⟨passes, ended, first⟩ := awaited.stops fault isOver
    refine ⟨.onward passes, ended, fun moment passes hasEnded => ?_⟩
    exact first moment ((notBefore moment passes).resolve_left hasEnded) hasEnded
  · rcases notBefore moment passes with notEnded | passes
    · exact notEnded
    · exact awaited.pending isPending moment passes

/-- A wait goes on through an act that takes no time unless the context has ended. -/
theorem awaitEnd_cons
    (id : Nat)
    (world : World)
    {act : ContextAct}
    (isInstant : ∀ duration, act ≠ .advance duration)
    (rest : List ContextAct) :
    awaitEnd id world (act :: rest) =
      match world.ended id with
      | some fault => (some fault, world)
      | none => awaitEnd id (world.perform act) rest := by
  rw [← done_eq_ended]
  cases act with
  | advance duration =>
      exact absurd rfl (isInstant duration)
  | new =>
      rfl
  | child parent =>
      rfl
  | withTimeout parent timeout =>
      rfl
  | cancel other =>
      rfl

/-- A wait is over at the first moment at which the context has ended, whatever is done
meanwhile. -/
theorem awaited_awaitEnd
    (id : Nat)
    (world : World)
    (acts : List ContextAct) :
    world.Awaited id acts (awaitEnd id world acts) := by
  induction acts generalizing world with
  | nil =>
      rw [awaitEnd, done_eq_ended]
      cases hasEnded : world.ended id with
      | some fault =>
          exact awaited_of_ended hasEnded []
      | none =>
          refine ⟨nofun, fun _ moment passes => ?_⟩
          rw [passes_nil_iff.mp passes, hasEnded]
  | cons act rest inductionHypothesis =>
      by_cases isAdvance : ∃ duration, act = .advance duration
      · obtain ⟨duration, rfl⟩ := isAdvance
        rw [awaitEnd]
        rcases waitUntil_eq id (Nat.le_add_right world.now duration) with
          ⟨instant, fault, isLater, notAfter, isWait, isFault, isFirst⟩ | ⟨isWait, notEnded⟩
        · rw [isWait]
          refine ⟨?_, nofun⟩
          rintro _ ⟨⟩
          refine ⟨.meanwhile isLater notAfter, isFault, fun moment passes hasEnded => ?_⟩
          have isNow : (world.goTo instant).now = instant := Nat.max_eq_right isLater
          rw [isNow]
          rcases passes_advance_iff.mp passes with ⟨other, isOther, _, rfl⟩ | passes
          · have isOtherNow : (world.goTo other).now = other := Nat.max_eq_right isOther
            rw [isOtherNow]
            by_contra isBefore
            exact hasEnded (isFirst other isOther (Nat.not_le.mp isBefore))
          · exact notAfter.trans ((Nat.le_max_right _ _).trans passes.now_le)
        · rw [isWait]
          refine (inductionHypothesis _).onward fun moment passes => ?_
          refine (passes_advance_iff.mp passes).imp_left ?_
          rintro ⟨instant, isLater, notAfter, rfl⟩
          exact notEnded instant isLater notAfter
      · have isInstant : ∀ duration, act ≠ .advance duration :=
          fun duration isAdvanced => isAdvance ⟨duration, isAdvanced⟩
        rw [awaitEnd_cons id world isInstant]
        cases hasEnded : world.ended id with
        | some fault =>
            exact awaited_of_ended hasEnded _
        | none =>
            refine (inductionHypothesis _).onward fun moment passes => ?_
            refine ((passes_cons_iff isInstant).mp passes).imp_left ?_
            rintro rfl
            exact hasEnded

end Rehearsal.World

end Runbook
