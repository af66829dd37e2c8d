import Runbook.Proofs.Rehearsal.Scene

namespace Runbook

/-!
# Contexts that a batch leaves alone

While a batch is under way time passes, and its own context may be cancelled.  All other
contexts stay as they are.  So the context above it ends, if at all, because its time has come,
and then that of the batch has ended as well.
-/

namespace ContextTree

/-- A context has ended if the one above it has. -/
theorem ended_of_parent
    {tree : ContextTree}
    {id parent : Nat}
    {context : Context}
    {limit : Option Instant}
    {now : Instant}
    (found : tree.contexts[id]? = some context)
    (isParent : context.parent = some parent)
    (isBefore : parent < id)
    (isDeadline : context.deadline = earliest limit (tree.deadline? parent))
    (hasEnded : tree.ended parent now ≠ none) :
    tree.ended id now ≠ none := by
  have come := hasCome_endsAt?_of_ended hasEnded
  apply ended_of_hasCome_endsAt?
  have isCancelled :
      tree.cancelledFrom? id = earliest context.cancelledFrom (tree.cancelledFrom? parent) := by
    rw [cancelledFrom?]
    simp only [found, isParent, isBefore, if_true]
  have isLate : tree.deadline? id = earliest limit (tree.deadline? parent) := by
    rw [deadline?, found, Option.bind_some, isDeadline]
  rw [endsAt?, hasCome_earliest, Bool.or_eq_true] at come ⊢
  rw [isCancelled, isLate, hasCome_earliest, hasCome_earliest, Bool.or_eq_true, Bool.or_eq_true]
  exact come.imp Or.inr Or.inr

end ContextTree

namespace Rehearsal

namespace World

/-- Time passes, and at most one context is cancelled. -/
structure Drifts (own : Nat) (before after : World) : Prop where
  passes : before.now ≤ after.now
  sameSize : after.tree.size = before.tree.size
  sameContext : ∀ id context, before.tree.contexts[id]? = some context →
    ∃ cancelledFrom,
      after.tree.contexts[id]? = some { context with cancelledFrom := cancelledFrom } ∧
        (id ≠ own → cancelledFrom = context.cancelledFrom)

variable {own : Nat} {world middle later : World}

theorem drifts_of_same
    (own : Nat)
    (sameTree : later.tree = world.tree)
    (passes : world.now ≤ later.now) :
    world.Drifts own later :=
  ⟨passes, by rw [sameTree], fun id context found =>
    ⟨context.cancelledFrom, by rw [sameTree, found], fun _ => rfl⟩⟩

theorem Drifts.refl
    (own : Nat)
    (world : World) :
    world.Drifts own world :=
  drifts_of_same own rfl (Nat.le_refl _)

theorem Drifts.trans
    (first : world.Drifts own middle)
    (second : middle.Drifts own later) :
    world.Drifts own later := by
  refine ⟨first.passes.trans second.passes, second.sameSize.trans first.sameSize,
    fun id context found => ?_⟩
  obtain ⟨once, foundMiddle, sameOnce⟩ := first.sameContext id context found
  obtain ⟨twice, foundLater, sameTwice⟩ := second.sameContext id _ foundMiddle
  exact ⟨twice, foundLater, fun isOther => (sameTwice isOther).trans (sameOnce isOther)⟩

theorem drifts_cancel
    (own : Nat)
    (world : World)
    (instant : Instant) :
    world.Drifts own (world.cancel own instant) := by
  refine ⟨Nat.le_refl _, ContextTree.size_cancel _ _ _, fun id context found => ?_⟩
  by_cases isOwn : own = id
  · refine ⟨earliest context.cancelledFrom (some instant), ?_,
      fun isOther => absurd isOwn.symm isOther⟩
    simp [cancel, ContextTree.cancel, isOwn, found]
  · refine ⟨context.cancelledFrom, ?_, fun _ => rfl⟩
    simp [cancel, ContextTree.cancel, isOwn, found]

theorem drifts_goTo
    (own : Nat)
    (world : World)
    (instant : Instant) :
    world.Drifts own (world.goTo instant) :=
  drifts_of_same own rfl (Nat.le_max_left _ _)

theorem drifts_noteRest
    (own : Nat)
    (world : World)
    (duration : Duration) :
    world.Drifts own (world.noteRest own duration) := by
  unfold noteRest
  dsimp only
  split
  · refine Drifts.trans ?_ (drifts_cancel own _ world.now)
    exact drifts_of_same own rfl (Nat.le_refl _)
  · exact drifts_of_same own rfl (Nat.le_refl _)

theorem drifts_beginAttempt
    (setup : Setup)
    (own : Nat)
    (invocation : Invocation)
    (world : World) :
    world.Drifts own (world.beginAttempt setup invocation).2 := by
  unfold beginAttempt
  dsimp only
  split <;> exact drifts_of_same own rfl (Nat.le_refl _)

theorem drifts_lookAtFlight
    (own : Nat)
    (invocation : Invocation)
    (flight : Flight)
    (world : World) :
    world.Drifts own (world.lookAtFlight own invocation flight).2 := by
  cases ended : world.ended own with
  | some fault =>
      simp only [lookAtFlight, done_eq_ended, ended]
      exact drifts_of_same own rfl (Nat.le_refl _)
  | none =>
      have drifts : world.Drifts own (world.afterFlight own flight) := by
        unfold afterFlight
        split
        · exact drifts_cancel own world world.now
        · exact .refl own world
      rw [lookAtFlight_of_none ended]
      dsimp only
      split
      · exact drifts.trans (drifts_of_same own rfl (Nat.le_refl _))
      · split
        · exact drifts.trans (drifts_of_same own rfl (Nat.le_refl _))
        · exact drifts

end World

open World (Drifts)

/-- Taking an invocation on cancels at most its own context. -/
theorem drifts_advance
    (setup : Setup)
    (own : Nat)
    (invocation : Invocation)
    (fuel : Nat)
    (stage : Stage String)
    (wait : Option Wait)
    (world : World) :
    world.Drifts own (advance setup own invocation fuel stage wait world).2.2 := by
  fun_induction advance setup own invocation fuel stage wait world with
  | case1 stage wait world =>
      exact .refl own world
  | case2 fuel ending wait world =>
      exact .refl own world
  | case3 fuel attempt flight world later after looked =>
      have drifts := World.drifts_lookAtFlight own invocation flight world
      rwa [looked] at drifts
  | case4 fuel attempt flight world outcome after looked next inductionHypothesis =>
      have drifts := World.drifts_lookAtFlight own invocation flight world
      rw [looked] at drifts
      exact drifts.trans inductionHypothesis
  | case5 fuel attempt wait world notFlight after begun =>
      have drifts := World.drifts_beginAttempt setup own invocation world
      rwa [begun] at drifts
  | case6 fuel attempt wait world notFlight flight after begun inductionHypothesis =>
      have drifts := World.drifts_beginAttempt setup own invocation world
      rw [begun] at drifts
      exact drifts.trans inductionHypothesis
  | case7 fuel attempt until_ world fault ended =>
      exact .refl own world
  | case8 fuel attempt until_ world ended isOver inductionHypothesis =>
      exact inductionHypothesis
  | case9 fuel attempt until_ world ended goesOn =>
      exact .refl own world
  | case10 fuel attempt wait world notRest fault ended =>
      exact .refl own world
  | case11 fuel attempt wait world notRest ended delay sleeps inductionHypothesis =>
      exact inductionHypothesis
  | case12 fuel attempt wait world notRest ended delay notSleeps after inductionHypothesis =>
      exact (World.drifts_noteRest own world delay).trans inductionHypothesis

theorem drifts_carryThrough
    (setup : Setup)
    (own : Nat)
    (invocation : Invocation)
    (fuel : Nat)
    (stage : Stage String)
    (wait : Option Wait)
    (world : World) :
    world.Drifts own (carryThrough setup own invocation fuel stage wait world).2 := by
  induction fuel generalizing stage wait world with
  | zero =>
      exact .refl own world
  | succ fuel inductionHypothesis =>
      have drifts :=
        drifts_advance setup own invocation (advanceFuel setup) stage wait world
      unfold carryThrough
      split
      · rename_i advanced
        rwa [advanced] at drifts
      · rename_i advanced
        rw [advanced] at drifts
        dsimp only
        split
        · exact drifts
        · exact drifts.trans ((World.drifts_goTo own _ _).trans (inductionHypothesis _ _ _))

theorem World.drifts_invoke
    (setup : Setup)
    (own : Nat)
    (name : String)
    (input : Json)
    (world : World) :
    world.Drifts own (invoke setup own name input world).2 := by
  obtain ⟨sameTree, sameNow, -⟩ := World.opens_openInvocation own name input world
  have opens : world.Drifts own (world.openInvocation own name input).2 :=
    World.drifts_of_same own sameTree (Nat.le_of_eq sameNow.symm)
  unfold invoke
  split
  · rename_i opened
    rwa [opened] at opens
  · rename_i opened
    rw [opened] at opens
    dsimp only
    obtain ⟨reportedTree, reportedNow, -⟩ :=
      World.exists_reported name (carryThrough setup own _ _ _ none _).1
        (carryThrough setup own _ _ _ none _).2
    exact opens.trans ((drifts_carryThrough setup own _ _ _ none _).trans
      (World.drifts_of_same own reportedTree (Nat.le_of_eq reportedNow.symm)))

namespace Scene

variable {setup : Setup}

/-- A scene becomes another one in which time has passed, and of whose contexts at most that
of the batch has been cancelled. -/
structure Drifts (before after : Scene) : Prop where
  sameContext : after.context = before.context
  world : before.world.Drifts before.context after.world

variable {scene middle later : Scene}

theorem Drifts.trans
    (first : scene.Drifts middle)
    (second : middle.Drifts later) :
    scene.Drifts later :=
  ⟨second.sameContext.trans first.sameContext,
    first.world.trans (first.sameContext ▸ second.world)⟩

theorem Drifts.refl
    (scene : Scene) :
    scene.Drifts scene :=
  ⟨rfl, .refl _ _⟩

/-- Who is ready does not matter. -/
theorem drifts_wakeAll
    (scene : Scene)
    (actors : List Actor) :
    scene.Drifts (scene.wakeAll actors) := by
  obtain ⟨ready, isWoken⟩ := scene.exists_wakeAll actors
  rw [isWoken]
  exact ⟨rfl, .refl _ _⟩

theorem drifts_wakeOnEnd
    (scene : Scene)
    (before : Option Fault) :
    scene.Drifts (scene.wakeOnEnd before) := by
  obtain ⟨ready, isWoken⟩ := scene.exists_wakeOnEnd before
  rw [isWoken]
  exact ⟨rfl, .refl _ _⟩

theorem drifts_handOver
    (scene : Scene)
    (index : Nat) :
    scene.Drifts (scene.handOver index) := by
  obtain ⟨ready, isOver⟩ := scene.exists_handOver index
  rw [isOver]
  exact ⟨rfl, .refl _ _⟩

theorem drifts_endTask
    (scene : Scene)
    (index : Nat)
    (ending : Ending String) :
    scene.Drifts (scene.endTask index ending) := by
  unfold endTask
  dsimp only
  refine Drifts.trans ?_ ((drifts_wakeOnEnd _ _).trans
    ((drifts_wakeAll _ _).trans (drifts_handOver _ index)))
  split
  · exact ⟨rfl, World.drifts_cancel _ _ _⟩
  · exact ⟨rfl, .refl _ _⟩

theorem drifts_goOn
    (scene : Scene)
    (index : Nat)
    (invocation : Invocation)
    (stage : Stage String)
    (wait : Option Wait) :
    scene.Drifts (scene.goOn setup index invocation stage wait) := by
  have advances :=
    drifts_advance setup scene.context invocation (advanceFuel setup) stage wait scene.world
  cases advanced :
      advance setup scene.context invocation (advanceFuel setup) stage wait scene.world with
  | mk reached rest =>
      obtain ⟨laterWait, world⟩ := rest
      rw [advanced] at advances
      have wakes := drifts_wakeOnEnd { scene with world := world } scene.ended
      have goes : scene.Drifts ({ scene with world := world }.wakeOnEnd scene.ended) := by
        refine Drifts.trans ?_ wakes
        exact ⟨rfl, advances⟩
      cases reached with
      | ended ending =>
          rw [goOn_of_ended advanced rfl]
          obtain ⟨reportedTree, reportedNow, -⟩ :=
            World.exists_reported invocation.name ending
              (({ scene with world := world } : Scene).wakeOnEnd scene.ended).world
          refine goes.trans (Drifts.trans ?_ (drifts_endTask _ _ _))
          exact ⟨rfl, World.drifts_of_same _ reportedTree (Nat.le_of_eq reportedNow.symm)⟩
      | attempting attempt =>
          rw [goOn_of_goesOn advanced nofun rfl]
          exact goes.trans ⟨rfl, .refl _ _⟩
      | resting attempt =>
          rw [goOn_of_goesOn advanced nofun rfl]
          exact goes.trans ⟨rfl, .refl _ _⟩

theorem drifts_beginTask
    (scene : Scene)
    (index : Nat) :
    scene.Drifts (scene.beginTask setup index) := by
  unfold beginTask
  split
  · exact .refl scene
  · rename_i task found
    obtain ⟨sameTree, sameNow, -⟩ :=
      World.opens_openInvocation scene.context task.call.name task.call.input scene.world
    have opens :=
      World.drifts_of_same scene.context sameTree (Nat.le_of_eq sameNow.symm)
    split
    · rename_i opened
      rw [opened] at opens
      refine Drifts.trans ?_ (drifts_endTask _ _ _)
      exact ⟨rfl, opens⟩
    · rename_i opened
      rw [opened] at opens
      refine Drifts.trans ?_ (drifts_goOn _ _ _ _ _)
      exact ⟨rfl, opens⟩

theorem drifts_giveUp
    (scene : Scene)
    (index : Nat)
    (fault : Fault) :
    scene.Drifts (scene.giveUp index fault) := by
  unfold giveUp
  dsimp only
  refine Drifts.trans ?_ ((drifts_wakeAll _ _).trans (drifts_handOver _ index))
  exact ⟨rfl, .refl _ _⟩

theorem drifts_taskTurn
    (scene : Scene)
    (index : Nat) :
    scene.Drifts (scene.taskTurn setup index) := by
  unfold taskTurn
  split
  · split
    · exact drifts_giveUp scene index _
    · split
      · exact .refl scene
      · dsimp only
        split
        · refine Drifts.trans ?_ (drifts_beginTask _ _)
          exact ⟨rfl, .refl _ _⟩
        · exact ⟨rfl, .refl _ _⟩
  · split
    · exact drifts_giveUp scene index _
    · exact drifts_beginTask scene index
  · split
    · exact drifts_goOn scene index _ _ _
    · exact .refl scene
  · exact .refl scene

theorem drifts_dispatch
    (scene : Scene) :
    scene.Drifts scene.dispatch := by
  obtain ⟨ready, isDispatched⟩ := scene.exists_dispatch
  rw [isDispatched]
  exact ⟨rfl, .refl _ _⟩

theorem drifts_collectorTurn
    (fuel : Nat)
    (scene : Scene) :
    scene.Drifts (collectorTurn fuel scene) := by
  induction fuel generalizing scene with
  | zero =>
      exact .refl scene
  | succ fuel inductionHypothesis =>
      rw [collectorTurn]
      refine (drifts_dispatch scene).trans ?_
      split
      · exact .refl _
      · refine Drifts.trans ?_ (inductionHypothesis _)
        exact ⟨rfl, .refl _ _⟩

theorem drifts_run
    (fuel : Nat)
    (scene : Scene) :
    scene.Drifts (run setup fuel scene) := by
  induction fuel generalizing scene with
  | zero =>
      exact .refl scene
  | succ fuel inductionHypothesis =>
      rw [run]
      split
      · rename_i actor rest isNext
        refine Drifts.trans ?_ (inductionHypothesis _)
        cases actor with
        | collector =>
            refine Drifts.trans ?_ (drifts_collectorTurn _ _)
            exact ⟨rfl, .refl _ _⟩
        | task index =>
            refine Drifts.trans ?_ (drifts_taskTurn _ index)
            exact ⟨rfl, .refl _ _⟩
      · split
        · exact .refl scene
        · split
          · exact .refl scene
          · dsimp only
            refine Drifts.trans ?_ ((drifts_wakeAll _ _).trans (inductionHypothesis _))
            exact ⟨rfl, World.drifts_goTo _ _ _⟩

/-- A batch cancels at most its own context. -/
theorem drifts_perform
    (setup : Setup)
    (own : Nat)
    (batch : Batch)
    (world : World) :
    world.Drifts own (perform setup own batch world).2 :=
  (drifts_run _ { world := world, batch := batch, context := own }).world

end Scene

namespace World

section

variable {own id : Nat} {world later : World}

theorem Drifts.getElem?_eq_none
    (drifts : world.Drifts own later)
    (isAbsent : world.tree.contexts[id]? = none) :
    later.tree.contexts[id]? = none := by
  apply List.getElem?_eq_none
  have sameSize : later.tree.contexts.length = world.tree.contexts.length := drifts.sameSize
  rw [sameSize]
  exact List.getElem?_eq_none_iff.mp isAbsent

/-- Deadlines stay as they are. -/
theorem Drifts.deadline?_eq
    (drifts : world.Drifts own later)
    (id : Nat) :
    later.tree.deadline? id = world.tree.deadline? id := by
  unfold ContextTree.deadline?
  cases found : world.tree.contexts[id]? with
  | none =>
      rw [drifts.getElem?_eq_none found]
  | some context =>
      obtain ⟨cancelledFrom, foundLater, -⟩ := drifts.sameContext id context found
      rw [foundLater]
      rfl

/-- Contexts that were made before are cancelled as before. -/
theorem Drifts.cancelledFrom?_eq
    (drifts : world.Drifts own later)
    (isBefore : id < own) :
    later.tree.cancelledFrom? id = world.tree.cancelledFrom? id := by
  induction id using Nat.strongRecOn with
  | ind id inductionHypothesis =>
      rw [ContextTree.cancelledFrom?, ContextTree.cancelledFrom?]
      cases found : world.tree.contexts[id]? with
      | none =>
          simp only [drifts.getElem?_eq_none found]
      | some context =>
          obtain ⟨cancelledFrom, foundLater, isSame⟩ := drifts.sameContext id context found
          simp only [foundLater, isSame (Nat.ne_of_lt isBefore)]
          split
          · rfl
          · split
            · rename_i isAbove
              rw [inductionHypothesis _ isAbove (isAbove.trans isBefore)]
            · rfl

/-- What has ended before stays ended. -/
theorem Drifts.ended_of_lt
    (drifts : world.Drifts own later)
    (isBefore : id < own)
    (hasEnded : world.ended id ≠ none) :
    later.ended id ≠ none := by
  apply ContextTree.ended_of_hasCome_endsAt?
  rw [ContextTree.endsAt?, drifts.cancelledFrom?_eq isBefore, drifts.deadline?_eq]
  exact ContextTree.hasCome_of_le drifts.passes (ContextTree.hasCome_endsAt?_of_ended hasEnded)

end

section Batches

variable {setup : Setup} {context id : Nat} {world begun later : World}

/-- A batch gets a context of its own, and nothing else changes. -/
theorem below_of_batchContext
    (made : world.batchContext setup context = some (id, begun)) :
    id = world.tree.size ∧
      ∃ limit, begun = { world with tree := world.tree.below context limit } := by
  obtain ⟨limit, -, isMade⟩ := Option.map_eq_some_iff.mp made
  obtain ⟨isLast, isBegun⟩ := Prod.mk.inj isMade
  exact ⟨isLast.symm, limit, isBegun.symm⟩

theorem inTree_of_batchContext
    (made : world.batchContext setup context = some (id, begun)) :
    id < begun.tree.size := by
  obtain ⟨rfl, limit, rfl⟩ := below_of_batchContext made
  rw [ContextTree.size_below]
  exact Nat.lt_succ_self _

/-- The context of a batch has ended if the one above it has. -/
theorem ended_of_batchContext
    (made : world.batchContext setup context = some (id, begun))
    {fault : Fault}
    (hasEnded : world.ended context = some fault) :
    begun.ended id = some fault := by
  obtain ⟨rfl, limit, rfl⟩ := below_of_batchContext made
  exact ContextTree.ended_below_self hasEnded limit

/-- Making it, a batch leaves the context above it as it is. -/
theorem ended_above_of_batchContext
    (made : world.batchContext setup context = some (id, begun))
    (inTree : context < world.tree.size) :
    begun.ended context = world.ended context := by
  obtain ⟨rfl, limit, rfl⟩ := below_of_batchContext made
  exact ContextTree.ended_below inTree context limit world.now

/-- Whatever becomes of a batch, its context has ended once the one above it has. -/
theorem Drifts.ended_of_batchContext
    (drifts : begun.Drifts id later)
    (made : world.batchContext setup context = some (id, begun))
    (inTree : context < world.tree.size)
    (hasEnded : later.ended context ≠ none) :
    later.ended id ≠ none := by
  obtain ⟨rfl, limit, rfl⟩ := below_of_batchContext made
  obtain ⟨cancelledFrom, found, -⟩ :=
    drifts.sameContext world.tree.size _ (ContextTree.getElem?_below_self _ context limit)
  have sameDeadline : later.tree.deadline? context = world.tree.deadline? context :=
    (drifts.deadline?_eq context).trans (ContextTree.deadline?_below inTree context limit)
  have isDeadline :
      earliest limit (world.tree.deadline? context) =
        earliest limit (later.tree.deadline? context) := by
    rw [sameDeadline]
  exact ContextTree.ended_of_parent found rfl inTree isDeadline hasEnded

end Batches

/-- Carrying calls out leaves the world as it is, or adds the context of a batch, which is the
only one that the batch may cancel. -/
theorem drifts_carryOut
    {setup : Setup}
    {context : Nat}
    {calls : List Call}
    {table : Option (List (String × List String))}
    {limit : Nat}
    {world later : World}
    {carried : Carried}
    (isCarried : world.carryOut setup context calls table limit = (carried, later)) :
    later = world ∨
      ∃ id begun, world.batchContext setup context = some (id, begun) ∧
        begun.Drifts id later ∧ (carried = .brokeDown → later = begun) := by
  unfold carryOut at isCarried
  split at isCarried
  · cases isCarried
    exact Or.inl rfl
  · cases isCarried
    exact Or.inl rfl
  · rename_i call isCall
    split at isCarried
    · cases isCarried
      exact Or.inl rfl
    · rename_i id begun made
      cases isCarried
      exact Or.inr ⟨id, begun, made, drifts_invoke setup id call.name call.input begun, nofun⟩
  · rename_i batch isBatch
    split at isCarried
    · cases isCarried
      exact Or.inl rfl
    · rename_i id begun made
      refine Or.inr ⟨id, begun, made, ?_⟩
      split at isCarried
      · cases isCarried
        exact ⟨.refl id _, fun _ => rfl⟩
      · cases isCarried
        exact ⟨Scene.drifts_perform setup id batch begun, nofun⟩

end World

end Rehearsal

end Runbook
