import Runbook.Proofs.Rehearsal.Refinement

namespace Runbook

/-!
# One call, alone or as a batch

One call is carried out alone, without the machinery of a batch.  A batch of that call takes
its turns through the same invocation: the task goes on whenever the call alone would, and in
between nobody else has a turn that changes anything.  So both come to the same result, and
to the same world but for the context of the batch, which a batch that fails fast cancels.
-/

namespace Batch

variable (call : Call) (limit : Nat) (failFast : Bool)

/-- A batch of one call whose task has got its permit. -/
def solo (place : TaskPlace) : Batch where
  tasks := [⟨call, [], place⟩]
  order := [0]
  failFast := failFast
  permits := limit - 1
  tally := .ofIds [call.id]

/-- The batch after its task has been started. -/
def soloQueued : Batch :=
  { solo call limit failFast .queued with permits := limit }

theorem dispatch_solo :
    (start [call] (.independent 1) limit failFast).dispatch none =
      soloQueued call limit failFast := by
  rfl

theorem request_soloQueued
    (positive : 0 < limit) :
    (soloQueued call limit failFast).request 0 = solo call limit failFast .granted := by
  rw [request, if_pos (show 0 < (soloQueued call limit failFast).permits from positive)]
  rfl

/-- The batch after its task has settled the call. -/
def soloOver (settled : Call) (trippedBy : Option String) : Batch :=
  { solo call limit failFast (.returned settled true) with
    permits := limit - 1 + 1
    trippedBy := trippedBy }

/-- The batch after its call has been collected. -/
def soloCollected (settled : Call) (trippedBy : Option String) : Batch :=
  { soloOver call limit failFast settled trippedBy with
    tasks := [⟨call, [], .collected settled⟩]
    tally := (Tally.ofIds [call.id]).lower settled.id }

theorem collect_soloOver
    (settled : Call)
    (trippedBy : Option String) :
    (soloOver call limit failFast settled trippedBy).collect 0 =
      soloCollected call limit failFast settled trippedBy := by
  have found :
      (soloOver call limit failFast settled trippedBy).tasks[0]? =
        some ⟨call, [], .returned settled true⟩ := rfl
  rw [collect_of_returned found rfl, keep_of_began]
  rfl

theorem finish_solo
    (place : TaskPlace)
    (ending : Ending String)
    (ended : Option Fault) :
    ∃ tripped trippedBy,
      (solo call limit failFast place).finish 0 ending ended =
        (tripped,
          soloOver call limit failFast
            (call.settle (ending.resultOr (breakdown call.name))) trippedBy) := by
  have found : (solo call limit failFast place).tasks[0]? = some ⟨call, [], place⟩ := rfl
  rw [finish_of_getElem? found]
  exact ⟨_, _, rfl⟩

end Batch

namespace Rehearsal

/-- A context that has ended makes no clock move. -/
theorem World.goTo_of_ended
    {world : World}
    {context : Nat}
    {other : Option Instant}
    {instant : Instant}
    (hasEnded : world.ended context ≠ none)
    (next : earliest other (world.contextEnd? context) = some instant) :
    world.goTo instant = world := by
  have hasCome := ContextTree.hasCome_endsAt?_of_ended hasEnded
  have isPast : ContextTree.hasCome world.now (some instant) = true := by
    rw [← next, ContextTree.hasCome_earliest]
    exact Bool.or_eq_true_iff.mpr (Or.inr hasCome)
  have isLater : max world.now instant = world.now :=
    max_eq_left (of_decide_eq_true isPast)
  rw [World.goTo, isLater]

namespace Scene

section Turns

variable {setup : Setup} {scene : Scene}

theorem run_of_ready
    {actor : Actor}
    {rest : List Actor}
    (isReady : scene.ready = actor :: rest)
    (fuel : Nat) :
    run setup (fuel + 1) scene =
      run setup fuel ({ scene with ready := rest }.turn setup actor) := by
  rw [run, isReady]

theorem run_of_inactive
    (noneReady : scene.ready = [])
    (noneActive : scene.activeTasks = [])
    (fuel : Nat) :
    run setup fuel scene = scene := by
  cases fuel with
  | zero =>
      rfl
  | succ fuel =>
      rw [run, noneReady]
      simp only [noneActive, List.isEmpty_nil, if_true]

theorem run_of_waiting
    (noneReady : scene.ready = [])
    {index : Nat}
    {others : List Nat}
    (areActive : scene.activeTasks = index :: others)
    {instant : Instant}
    (isNext : scene.nextInstant? = some instant)
    (fuel : Nat) :
    run setup (fuel + 1) scene =
      run setup fuel
        ({ scene with world := scene.world.goTo instant }.wakeAll
          (({ scene with world := scene.world.goTo instant } : Scene).dueTasks.map .task)) := by
  rw [run, noneReady]
  simp only [areActive, List.isEmpty_cons, Bool.false_eq_true, if_false, isNext]

end Turns

section Solo

variable (call : Call) (limit : Nat) (failFast : Bool) (context : Nat)

/-- A rehearsal of a batch of one call. -/
def solo (world : World) (place : TaskPlace) (ready : List Actor)
    (waits : List (Nat × Invocation × Option Wait)) : Scene where
  world := world
  batch := .solo call limit failFast place
  context := context
  ready := ready
  waits := waits

/-- A rehearsal of a batch of one call that has been settled. -/
def soloOver (world : World) (settled : Call) (trippedBy : Option String)
    (ready : List Actor) : Scene where
  world := world
  batch := .soloOver call limit failFast settled trippedBy
  context := context
  ready := ready
  returned := [0]

variable {setup : Setup} {world : World} {place : TaskPlace} {ready : List Actor}
  {waits : List (Nat × Invocation × Option Wait)}

/-- The end of the context concerns nobody any more. -/
theorem wakeOnEnd_of_soloOver
    {scene : Scene}
    {settled : Call}
    {trippedBy : Option String}
    (isOver : scene.batch = .soloOver call limit failFast settled trippedBy)
    (before : Option Fault) :
    scene.wakeOnEnd before = scene := by
  have nobody : scene.activeTasks = [] := by
    rw [activeTasks, isOver]
    rfl
  unfold wakeOnEnd
  split
  · rw [nobody]
    rfl
  · rfl

/-- The task settles its call, and the collector has a turn. -/
theorem endTask_solo
    (world : World)
    (place : TaskPlace)
    (ending : Ending String)
    (isQuiet : .collector ∉ ready)
    (isOwn : ∀ entry ∈ waits, entry.1 = 0) :
    ∃ trippedBy later,
      (solo call limit failFast context world place ready waits).endTask 0 ending =
          soloOver call limit failFast context later
            (call.settle (ending.resultOr (Batch.breakdown call.name))) trippedBy
            (ready ++ [.collector]) ∧
        (later = world ∨ later = world.cancel context world.now) := by
  obtain ⟨tripped, trippedBy, isFinished⟩ :
      ∃ tripped trippedBy,
        (solo call limit failFast context world place ready waits).batch.finish 0 ending
            (solo call limit failFast context world place ready waits).ended =
          (tripped,
            .soloOver call limit failFast
              (call.settle (ending.resultOr (Batch.breakdown call.name))) trippedBy) :=
    Batch.finish_solo call limit failFast place ending _
  refine ⟨trippedBy, if tripped then world.cancel context world.now else world, ?_, ?_⟩
  · have nobody :
        newlyGranted (.solo call limit failFast place)
          (.soloOver call limit failFast
            (call.settle (ending.resultOr (Batch.breakdown call.name))) trippedBy) = [] := by
      rfl
    have noWaits : waits.filter (·.1 != 0) = [] := by
      rw [List.filter_eq_nil_iff]
      intro entry isEntry
      simp [isOwn entry isEntry]
    simp only [endTask, isFinished]
    rw [wakeOnEnd_of_soloOver call limit failFast rfl]
    simp only [solo, soloOver, nobody, wakeAll, List.foldl_nil, handOver, noWaits, wake,
      isQuiet, if_false, List.nil_append]
  · cases tripped with
    | true =>
        exact Or.inr rfl
    | false =>
        exact Or.inl rfl

theorem dispatch_of_none_ready
    {scene : Scene}
    (noneReady : scene.batch.readyTasks = []) :
    scene.dispatch = scene := by
  unfold dispatch Batch.dispatch
  cases scene.ended with
  | some fault =>
      rfl
  | none =>
      simp only [noneReady, List.foldl_nil, List.map_nil, wakeAll]

/-- The collector stores what is settled, and starts nothing more. -/
theorem collectorTurn_soloOver
    (settled : Call)
    (trippedBy : Option String) :
    collectorTurn 2 (soloOver call limit failFast context world settled trippedBy ready) =
      { world := world
        batch := .soloCollected call limit failFast settled trippedBy
        context := context
        ready := ready } := by
  have noneLeft :
      (soloOver call limit failFast context world settled trippedBy ready).batch.readyTasks =
        [] := rfl
  have noneAfter : (Batch.soloCollected call limit failFast settled trippedBy).readyTasks = [] :=
    rfl
  have collects :
      (soloOver call limit failFast context world settled trippedBy ready).batch.collect 0 =
        .soloCollected call limit failFast settled trippedBy :=
    Batch.collect_soloOver call limit failFast settled trippedBy
  rw [collectorTurn, dispatch_of_none_ready noneLeft]
  simp only [soloOver] at collects ⊢
  rw [collects, collectorTurn, dispatch_of_none_ready noneAfter]

/-- What is settled is collected, and then nobody has a turn. -/
theorem run_soloOver
    (fuel : Nat)
    (settled : Call)
    (trippedBy : Option String)
    (isReady : ready = [.collector] ∨ ready = [.task 0, .collector]) :
    run setup (fuel + 3)
        (soloOver call limit failFast context world settled trippedBy ready) =
      { world := world
        batch := .soloCollected call limit failFast settled trippedBy
        context := context
        ready := [] } := by
  have collects (fuel : Nat) :
      run setup (fuel + 2)
          (soloOver call limit failFast context world settled trippedBy [.collector]) =
        { world := world
          batch := .soloCollected call limit failFast settled trippedBy
          context := context
          ready := [] } := by
    have turns :
        ({ soloOver call limit failFast context world settled trippedBy [.collector] with
            ready := [] } : Scene).turn setup .collector =
          { world := world
            batch := .soloCollected call limit failFast settled trippedBy
            context := context
            ready := [] } :=
      collectorTurn_soloOver call limit failFast context settled trippedBy
    rw [run_of_ready rfl, turns, run_of_inactive rfl rfl]
  rcases isReady with rfl | rfl
  · exact collects (fuel + 1)
  · -- The task has returned, and its turn changes nothing.
    rw [run_of_ready rfl]
    exact collects fuel

/-- The end of the context makes the task ready. -/
theorem exists_wakeOnEnd_solo
    (world : World)
    (waits : List (Nat × Invocation × Option Wait))
    (isActive : place.isActive = true)
    (before : Option Fault) :
    ∃ ready,
      (solo call limit failFast context world place [] waits).wakeOnEnd before =
          solo call limit failFast context world place ready waits ∧
        (ready = [] ∨ ready = [.task 0] ∧ world.ended context ≠ none) := by
  have isAlone :
      (solo call limit failFast context world place [] waits).activeTasks = [0] := by
    have isThere : (Batch.solo call limit failFast place).place? 0 = some place := rfl
    simp [activeTasks, solo, Batch.solo] at isThere ⊢
    simp [isThere, isActive]
  unfold wakeOnEnd
  split
  · rename_i _ fault hasEnded
    refine ⟨[.task 0], ?_, Or.inr ⟨rfl, ?_⟩⟩
    · rw [isAlone]
      rfl
    · rw [show world.ended context = some fault from hasEnded]
      nofun
  · exact ⟨[], rfl, Or.inl rfl⟩

variable {invocation : Invocation} {stage later : Stage String} {wait laterWait : Option Wait}
  {after : World}

/-- The task goes on as its invocation does, and waits again. -/
theorem exists_goOn_solo
    (isActive : place.isActive = true)
    (isOwn : ∀ entry ∈ waits, entry.1 = 0)
    (advanced :
      advance setup context invocation (advanceFuel setup) stage wait world =
        (later, laterWait, after))
    (goesOn : ∀ ending, later ≠ .ended ending) :
    ∃ ready,
      (solo call limit failFast context world place [] waits).goOn setup 0 invocation stage
            wait =
          solo call limit failFast context after (.running later) ready
            [(0, invocation, laterWait)] ∧
        (ready = [] ∨ ready = [.task 0] ∧ after.ended context ≠ none) := by
  obtain ⟨ready, isWoken, isReady⟩ :=
    exists_wakeOnEnd_solo call limit failFast context after waits isActive
      (world.ended context)
  have noWaits : waits.filter (·.1 != 0) = [] := by
    rw [List.filter_eq_nil_iff]
    intro entry isEntry
    simp [isOwn entry isEntry]
  refine ⟨ready, ?_, isReady⟩
  rw [goOn_of_goesOn advanced goesOn isWoken]
  simp only [solo, noWaits]
  rfl

/-- The task ends as its invocation does, and the collector has a turn. -/
theorem exists_goOn_solo_ended
    {ending : Ending String}
    (isActive : place.isActive = true)
    (isOwn : ∀ entry ∈ waits, entry.1 = 0)
    (advanced :
      advance setup context invocation (advanceFuel setup) stage wait world =
        (.ended ending, laterWait, after)) :
    let reported := (World.gate invocation.name).report ending after
    ∃ trippedBy last ready,
      (solo call limit failFast context world place [] waits).goOn setup 0 invocation stage
            wait =
          soloOver call limit failFast context last
            (call.settle (reported.1.resultOr (Batch.breakdown call.name))) trippedBy ready ∧
        (ready = [.collector] ∨ ready = [.task 0, .collector]) ∧
          (last = reported.2 ∨ last = reported.2.cancel context reported.2.now) := by
  intro reported
  obtain ⟨ready, isWoken, isReady⟩ :=
    exists_wakeOnEnd_solo call limit failFast context after waits isActive
      (world.ended context)
  have isQuiet : .collector ∉ ready := by
    rcases isReady with rfl | ⟨rfl, -⟩ <;> simp
  obtain ⟨trippedBy, last, isEnded, isLast⟩ :=
    endTask_solo call limit failFast context reported.2 place reported.1 isQuiet isOwn
  refine ⟨trippedBy, last, ready ++ [.collector], ?_, ?_, isLast⟩
  · rw [goOn_of_ended advanced isWoken]
    exact isEnded
  · rcases isReady with rfl | ⟨rfl, -⟩
    · exact Or.inl rfl
    · exact Or.inr rfl

theorem dueTasks_solo
    (stage : Stage String)
    (ready : List Actor)
    (invocation : Invocation)
    {awaited : Wait}
    (isDue : IsDue context awaited world) :
    (solo call limit failFast context world (.running stage) ready
      [(0, invocation, some awaited)]).dueTasks = [0] := by
  have isAlone :
      (solo call limit failFast context world (.running stage) ready
        [(0, invocation, some awaited)]).activeTasks = [0] := rfl
  rw [dueTasks, isAlone]
  refine List.filter_cons_of_pos ?_
  rcases isDue with come | hasEnded
  · simp [solo, come]
  · rw [Bool.or_eq_true]
    exact Or.inl (Option.isSome_iff_ne_none.mpr hasEnded)

/-- While it waits nobody else has a turn, and at the next instant that matters it goes on. -/
theorem run_solo_waiting
    (setup : Setup)
    (stage : Stage String)
    (invocation : Invocation)
    {awaited : Wait}
    {instant : Instant}
    (isReady : ready = [] ∨ ready = [.task 0] ∧ world.ended context ≠ none)
    (next : earliest (some awaited.next) (world.contextEnd? context) = some instant)
    (fuel : Nat) :
    ∃ more,
      run setup (fuel + 2)
          (solo call limit failFast context world (.running stage) ready
            [(0, invocation, some awaited)]) =
        run setup (fuel + more)
          ((solo call limit failFast context (world.goTo instant) (.running stage) []
            [(0, invocation, some awaited)]).goOn setup 0 invocation stage (some awaited)) := by
  rcases isReady with rfl | ⟨rfl, hasEnded⟩
  · refine ⟨0, ?_⟩
    have isAlone :
        (solo call limit failFast context world (.running stage) []
          [(0, invocation, some awaited)]).activeTasks = [0] := rfl
    have isNext :
        (solo call limit failFast context world (.running stage) []
          [(0, invocation, some awaited)]).nextInstant? = some instant := next
    have areDue :=
      dueTasks_solo call limit failFast context stage [] invocation (isDue_goTo next)
    rw [run_of_waiting rfl isAlone isNext]
    simp only [solo] at areDue ⊢
    rw [areDue, run_of_ready rfl]
    rfl
  · refine ⟨1, ?_⟩
    have stays : world.goTo instant = world := World.goTo_of_ended hasEnded next
    rw [run_of_ready rfl, stays]
    rfl

/-- A batch of one call comes to what its invocation comes to when it is carried through. -/
theorem run_solo
    (invocation : Invocation)
    (turns fuel : Nat)
    {stage : Stage String}
    {wait : Option Wait}
    {world : World}
    {place : TaskPlace}
    {waits : List (Nat × Invocation × Option Wait)}
    (isActive : place.isActive = true)
    (isOwn : ∀ entry ∈ waits, entry.1 = 0)
    (enough :
      let after := advance setup context invocation (advanceFuel setup) stage wait world
      Rehearsal.waits setup.policy.attempts after.1 after.2.1 < turns) :
    let carried := carryThrough setup context invocation turns stage wait world
    let reported := (World.gate invocation.name).report carried.1 carried.2
    ∃ trippedBy last,
      run setup (fuel + 2 * turns + 3)
          ((solo call limit failFast context world place [] waits).goOn setup 0 invocation
            stage wait) =
          { world := last
            batch :=
              .soloCollected call limit failFast
                (call.settle (reported.1.resultOr (Batch.breakdown call.name))) trippedBy
            context := context
            ready := [] } ∧
        (last = reported.2 ∨ last = reported.2.cancel context reported.2.now) := by
  induction turns generalizing fuel stage wait world place waits with
  | zero =>
      exact absurd enough (Nat.not_lt_zero _)
  | succ turns inductionHypothesis =>
      have rests :=
        rests_advance setup context invocation (advanceFuel setup) stage wait world
          (needed_le setup.policy.attempts stage wait)
      cases advanced :
          advance setup context invocation (advanceFuel setup) stage wait world with
      | mk later rest =>
          obtain ⟨laterWait, after⟩ := rest
          simp only [advanced] at rests enough
          rcases rests with ⟨ending, isEnded⟩ | suits
          · rw [isEnded] at advanced
            obtain ⟨trippedBy, last, ready, isGone, isReady, isLast⟩ :=
              exists_goOn_solo_ended call limit failFast context isActive isOwn advanced
            refine ⟨trippedBy, last, ?_, ?_⟩
            · rw [isGone, run_soloOver call limit failFast context _ _ _ isReady]
              simp only [carryThrough, advanced]
            · simp only [carryThrough, advanced]
              exact isLast
          · have goesOn : ∀ ending, later ≠ .ended ending := by
              rintro ending rfl
              cases suits
            obtain ⟨ready, isGone, isReady⟩ :=
              exists_goOn_solo call limit failFast context isActive isOwn advanced goesOn
            obtain ⟨awaited, instant, isAwaited, next, carriesOn⟩ :=
              exists_carryThrough turns advanced suits
            rw [isAwaited] at suits isGone enough carriesOn
            have fewer :=
              waits_advance_lt setup invocation (4 * setup.policy.attempts + 7) suits
                (isDue_goTo next)
            obtain ⟨more, waited⟩ :=
              run_solo_waiting call limit failFast context setup later invocation isReady next
                (fuel + 2 * turns + 3)
            have enoughLater := fewer.trans_le (Nat.le_of_lt_succ enough)
            have stillOwn :
                ∀ entry ∈ [(0, invocation, some awaited)], entry.1 = 0 := by
              simp
            have stillActive : (TaskPlace.running later).isActive = true := rfl
            obtain ⟨trippedBy, last, isRun, isLast⟩ :=
              inductionHypothesis (fuel + more) stillActive stillOwn enoughLater
            refine ⟨trippedBy, last, ?_, ?_⟩
            · have isFuel :
                  fuel + 2 * turns + 3 + more = fuel + more + 2 * turns + 3 := by
                omega
              rw [isGone, show fuel + 2 * (turns + 1) + 3 = fuel + 2 * turns + 3 + 2 by omega,
                waited, isFuel, isRun, carriesOn]
            · rw [carriesOn]
              exact isLast

/-- The collector starts the task, which is given its permit and begins. -/
theorem run_start_solo
    (setup : Setup)
    (positive : 0 < limit)
    {world : World}
    (goesOn : world.ended context = none)
    (fuel : Nat) :
    run setup (fuel + 2)
        { world := world
          batch := .start [call] (.independent 1) limit failFast
          context := context } =
      run setup fuel
        ((solo call limit failFast context world .granted [] []).beginTask setup 0) := by
  have starts :
      ({ world := world
         batch := .start [call] (.independent 1) limit failFast
         context := context
         ready := [] } : Scene).turn setup .collector =
        { world := world
          batch := .soloQueued call limit failFast
          context := context
          ready := [.task 0] } := by
    have isEnded : world.ended context = none := goesOn
    simp only [turn]
    change collectorTurn 2 _ = _
    rw [collectorTurn]
    simp only [dispatch, Scene.ended, isEnded, Batch.dispatch_solo]
    rfl
  have begins :
      ({ world := world
         batch := .soloQueued call limit failFast
         context := context
         ready := [] } : Scene).turn setup (.task 0) =
        (solo call limit failFast context world .granted [] []).beginTask setup 0 := by
    have isQueued : (Batch.soloQueued call limit failFast).place? 0 = some .queued := rfl
    have notInLine : 0 ∉ (Batch.soloQueued call limit failFast).line := List.not_mem_nil
    have isGranted :
        (Batch.solo call limit failFast .granted).place? 0 = some .granted := rfl
    simp only [turn, taskTurn, isQueued, done_eq_ended, Scene.ended, goesOn, notInLine, if_false,
      Batch.request_soloQueued call limit failFast positive, isGranted, beq_self_eq_true,
      if_true]
    rfl
  rw [run_of_ready rfl, starts, run_of_ready rfl, begins]

/-- Once the task has its permit, the batch comes to what its invocation comes to. -/
theorem run_beginTask_solo
    (setup : Setup)
    (world : World)
    (fuel : Nat) :
    let invoked := invoke setup context call.name call.input world
    ∃ trippedBy last,
      run setup (fuel + 2 * (4 * setup.policy.attempts + 8) + 3)
          ((solo call limit failFast context world .granted [] []).beginTask setup 0) =
          { world := last
            batch :=
              .soloCollected call limit failFast
                (call.settle (invoked.1.resultOr (Batch.breakdown call.name))) trippedBy
            context := context
            ready := [] } ∧
        (last = invoked.2 ∨ last = invoked.2.cancel context invoked.2.now) := by
  intro invoked
  have found :
      (solo call limit failFast context world .granted [] []).batch.tasks[0]? =
        some ⟨call, [], .granted⟩ := rfl
  obtain ⟨-, -, opens⟩ := World.opens_openInvocation context call.name call.input world
  cases opened : world.openInvocation context call.name call.input with
  | mk opening later =>
      have isOpened :
          (solo call limit failFast context world .granted [] []).world.openInvocation
              (solo call limit failFast context world .granted [] []).context call.name
              call.input = (opening, later) := opened
      rw [opened] at opens
      dsimp only at opens
      rcases opens with ⟨fault, isRefused, -⟩ | ⟨tool, isAdmitted⟩
      · rw [isRefused] at isOpened
        have isInvoked : invoked = (.fault fault, later) := by
          simp only [invoked, invoke, opened, isRefused]
        obtain ⟨trippedBy, last, isEnded, isLast⟩ :=
          endTask_solo call limit failFast context later .granted (.fault fault)
            (List.not_mem_nil : Actor.collector ∉ [])
            (List.forall_mem_nil _)
        refine ⟨trippedBy, last, ?_, ?_⟩
        · rw [isInvoked, beginTask, found]
          simp only [isOpened]
          change run setup _ ((solo call limit failFast context later .granted [] []).endTask 0
            (.fault fault)) = _
          rw [isEnded]
          exact run_soloOver call limit failFast context _ _ _ (Or.inl rfl)
        · rw [isInvoked]
          exact isLast
      · rw [isAdmitted] at isOpened
        have enough :=
          (waits_advance_le setup context ⟨call.name, tool, call.input⟩ (advanceFuel setup)
            (.enter 1 (world.ended context)) none later).trans
            (waits_enter_le setup.policy.attempts 1 (world.ended context))
        have isGranted : TaskPlace.granted.isActive = true := rfl
        obtain ⟨trippedBy, last, isRun, isLast⟩ :=
          run_solo call limit failFast context ⟨call.name, tool, call.input⟩
            (4 * setup.policy.attempts + 8) fuel isGranted
            (List.forall_mem_nil _)
            (Nat.lt_of_le_of_lt enough (by omega))
        have isInvoked :
            invoked =
              (World.gate call.name).report
                (carryThrough setup context ⟨call.name, tool, call.input⟩
                  (4 * setup.policy.attempts + 8) (.enter 1 (world.ended context)) none
                  later).1
                (carryThrough setup context ⟨call.name, tool, call.input⟩
                  (4 * setup.policy.attempts + 8) (.enter 1 (world.ended context)) none
                  later).2 := by
          simp only [invoked, invoke, opened, isAdmitted]
        refine ⟨trippedBy, last, ?_, ?_⟩
        · rw [isInvoked, beginTask, found]
          simp only [isOpened]
          exact isRun
        · rw [isInvoked]
          exact isLast

/-- A batch of one call whose context goes on comes to what its invocation comes to. -/
theorem perform_solo
    (setup : Setup)
    (positive : 0 < limit)
    {world : World}
    (goesOn : world.ended context = none) :
    let invoked := invoke setup context call.name call.input world
    ∃ last,
      perform setup context (.start [call] (.independent 1) limit failFast) world =
          ([call.settle (invoked.1.resultOr (Batch.breakdown call.name))], last) ∧
        (last = invoked.2 ∨ last = invoked.2.cancel context invoked.2.now) := by
  intro invoked
  have isFuel :
      runFuel setup 1 =
        16 * setup.policy.attempts + 75 + 2 * (4 * setup.policy.attempts + 8) + 3 + 2 := by
    simp only [runFuel]
    omega
  have oneTask : (Batch.start [call] (.independent 1) limit failFast).tasks.length = 1 := rfl
  obtain ⟨trippedBy, last, isRun, isLast⟩ :=
    run_beginTask_solo call limit failFast context setup world
      (16 * setup.policy.attempts + 75)
  refine ⟨last, ?_, isLast⟩
  unfold perform
  rw [oneTask, isFuel, run_start_solo call limit failFast context setup positive goesOn, isRun]
  rfl

/-- A batch of one call whose context has ended starts nothing. -/
theorem perform_solo_ended
    (setup : Setup)
    {world : World}
    {fault : Fault}
    (hasEnded : world.ended context = some fault) :
    perform setup context (.start [call] (.independent 1) limit failFast) world =
      ([call.settle (.error fault)], world) := by
  have notStarted :
      ({ world := world
         batch := .start [call] (.independent 1) limit failFast
         context := context
         ready := [] } : Scene).turn setup .collector =
        { world := world
          batch := .start [call] (.independent 1) limit failFast
          context := context
          ready := [] } := by
    simp only [turn]
    change collectorTurn 2 _ = _
    rw [collectorTurn]
    simp only [dispatch, Scene.ended, hasEnded]
    rfl
  have oneTask : (Batch.start [call] (.independent 1) limit failFast).tasks.length = 1 := rfl
  have isFuel : runFuel setup 1 = 24 * setup.policy.attempts + 95 + 1 := by
    simp only [runFuel]
    omega
  unfold perform
  rw [oneTask, isFuel, run_of_ready rfl, notStarted, run_of_inactive rfl rfl]
  simp only [Scene.ended, hasEnded]
  rfl

end Solo

end Scene

/-- Why an invocation is refused, if it is. -/
def Opening.refusal? : Opening → Option Fault
  | .refused fault => some fault
  | .admitted _ _ => none

namespace World

variable {setup : Setup} {context id : Nat} {world begun : World}

/-- An operation that is over does nothing more. -/
theorem carryThrough_ended
    (setup : Setup)
    (context : Nat)
    (invocation : Invocation)
    (fuel : Nat)
    (ending : Ending String)
    (world : World) :
    carryThrough setup context invocation (fuel + 1) (.ended ending) none world =
      (ending, world) := by
  have stays :
      advance setup context invocation (advanceFuel setup) (.ended ending) none world =
        (.ended ending, none, world) := rfl
  rw [carryThrough, stays]

/-- Under a context that has ended an invocation is opened, and that is all. -/
theorem invoke_of_ended
    {name : String}
    {input : Json}
    {fault : Fault}
    (hasEnded : world.ended context = some fault) :
    invoke setup context name input world =
      (.fault ((world.openInvocation context name input).1.refusal?.getD fault),
        (world.openInvocation context name input).2) := by
  obtain ⟨-, -, opens⟩ := opens_openInvocation context name input world
  cases opened : world.openInvocation context name input with
  | mk opening later =>
      rw [opened] at opens
      dsimp only at opens
      rcases opens with ⟨other, isRefused, -⟩ | ⟨tool, isAdmitted⟩
      · simp only [invoke, opened, isRefused]
        rfl
      · have ignored : Verdict.of (.fault fault : Ending String) = .nothing :=
          if_pos (ContextTree.endsContext_of_ended hasEnded)
        -- The operation is over before its first attempt, and its ending does not count.
        simp only [invoke, opened, isAdmitted, hasEnded, Stage.enter, carryThrough_ended,
          Gate.report, ignored]
        rfl

/-- How one call is carried out alone. -/
theorem carryOut_one
    (call : Call)
    {table : Option (List (String × List String))}
    (noDependencies : table.getD [] = [])
    (made : world.batchContext setup context = some (id, begun))
    (limit : Nat) :
    let invoked := invoke setup id call.name call.input begun
    world.carryOut setup context [call] table limit =
      (.calls [call.settle (invoked.1.resultOr (Batch.breakdown call.name))], invoked.2) := by
  have isScheduled :
      Execution.scheduleOf [call] table = .ok (.independent 1) := by
    match table with
    | none =>
        rfl
    | some [] =>
        rfl
    | some (entry :: rest) =>
        cases noDependencies
  simp only [carryOut, Execution.of, isScheduled, made]

/-- How one call is carried out as a chunk of its own. -/
theorem carryOutInChunks_one
    (call : Call)
    (made : world.batchContext setup context = some (id, begun))
    (fewPermits : max setup.batch.maxConcurrency 1 ≤ Execution.maxPermits)
    (goesOn : world.ended context = none)
    (size : Nat) :
    world.carryOutInChunks setup context [call] size =
      (.calls (Scene.perform setup id (Execution.chunkBatch setup.batch [call]) begun).1,
        (Scene.perform setup id (Execution.chunkBatch setup.batch [call]) begun).2) := by
  have oneChunk : Execution.chunks (Execution.chunkSize setup.batch size) [call] = [[call]] := by
    simp [Execution.chunks]
  have worksOut :
      (Execution.batch (Execution.chunkBatch setup.batch [call])).breaksDown = false :=
    decide_eq_false (Nat.not_lt.mpr fewPermits)
  simp [carryOutInChunks, oneChunk, carryOutChunks, goesOn, made, worksOut]

theorem roster_of_batchContext
    (made : world.batchContext setup context = some (id, begun)) :
    begun.roster = world.roster := by
  obtain ⟨-, limit, rfl⟩ := below_of_batchContext made
  rfl

/-- A chunk under a context that has ended is not touched, be it that of the chunk or the one
above it. -/
theorem carryOutInChunks_one_of_ended
    {call : Call}
    (made : world.batchContext setup context = some (id, begun))
    (fewPermits : max setup.batch.maxConcurrency 1 ≤ Execution.maxPermits)
    {fault : Fault}
    (hasEnded : begun.ended id = some fault)
    (size : Nat) :
    (world.carryOutInChunks setup context [call] size).1 =
        .calls [call.settle (.error fault)] ∧
      (world.carryOutInChunks setup context [call] size).2.roster = world.roster := by
  cases endedAbove : world.ended context with
  | some other =>
      have sameFault : other = fault :=
        Option.some.inj ((ended_of_batchContext made endedAbove).symm.trans hasEnded)
      have oneChunk :
          Execution.chunks (Execution.chunkSize setup.batch size) [call] = [[call]] := by
        simp [Execution.chunks]
      simp [carryOutInChunks, oneChunk, carryOutChunks, endedAbove, sameFault]
  | none =>
      have notTouched :
          Scene.perform setup id (Execution.chunkBatch setup.batch [call]) begun =
            ([call.settle (.error fault)], begun) :=
        Scene.perform_solo_ended call _ _ id setup hasEnded
      rw [carryOutInChunks_one call made fewPermits endedAbove size, notTouched]
      exact ⟨rfl, roster_of_batchContext made⟩

/-- One call, carried out alone and as a batch.  While the context of the batch goes on, both
come to the same, but that a batch that fails fast cancels its context.  Where it has ended
before, the batch does not touch the call; alone it still looks its tool up and asks the
breaker, and a refusal counts for more than the end of the context. -/
structure OneCall (id : Nat) (call : Call) (world begun : World)
    (alone chunked : Carried × World) : Prop where
  sameCalls :
    begun.ended id = none →
    alone.1 = chunked.1
  sameRoster :
    begun.ended id = none →
    alone.2.roster = chunked.2.roster
  sameWorld :
    begun.ended id = none →
    chunked.2 = alone.2 ∨ chunked.2 = alone.2.cancel id alone.2.now
  notTouched :
    ∀ fault, begun.ended id = some fault →
      chunked.1 = .calls [call.settle (.error fault)] ∧ chunked.2.roster = world.roster
  opened :
    ∀ fault, begun.ended id = some fault →
      let opened := begun.openInvocation id call.name call.input
      alone = (.calls [call.settle (.error (opened.1.refusal?.getD fault))], opened.2)

theorem oneCall_of_batchContext
    {call : Call}
    {table : Option (List (String × List String))}
    (noDependencies : table.getD [] = [])
    (made : world.batchContext setup context = some (id, begun))
    (fewPermits : max setup.batch.maxConcurrency 1 ≤ Execution.maxPermits)
    (limit size : Nat) :
    OneCall id call world begun (world.carryOut setup context [call] table limit)
      (world.carryOutInChunks setup context [call] size) := by
  have isAlone := carryOut_one call noDependencies made limit
  have agrees :
      begun.ended id = none →
        let alone := world.carryOut setup context [call] table limit
        let chunked := world.carryOutInChunks setup context [call] size
        alone.1 = chunked.1 ∧
          (chunked.2 = alone.2 ∨ chunked.2 = alone.2.cancel id alone.2.now) := by
    intro goesOn alone chunked
    have goesOnAbove : world.ended context = none := by
      by_contra hasEnded
      obtain ⟨fault, isFault⟩ := Option.ne_none_iff_exists'.mp hasEnded
      rw [ended_of_batchContext made isFault] at goesOn
      cases goesOn
    have positive : 0 < max setup.batch.maxConcurrency 1 := by omega
    obtain ⟨last, isPerformed, isLast⟩ :=
      Scene.perform_solo call _ (!setup.batch.continueOnError) id setup positive goesOn
    have isChunked := carryOutInChunks_one call made fewPermits goesOnAbove size
    have isBatch :
        Execution.chunkBatch setup.batch [call] =
          .start [call] (.independent 1) (max setup.batch.maxConcurrency 1)
            (!setup.batch.continueOnError) := rfl
    simp only [alone, chunked, isAlone, isChunked, isBatch, isPerformed]
    exact ⟨trivial, isLast⟩
  exact
    { sameCalls := fun goesOn => (agrees goesOn).1
      sameRoster := fun goesOn => by
        rcases (agrees goesOn).2 with isSame | isCancelled
        · rw [isSame]
        · rw [isCancelled]
          rfl
      sameWorld := fun goesOn => (agrees goesOn).2
      notTouched := fun fault hasEnded =>
        carryOutInChunks_one_of_ended made fewPermits hasEnded size
      opened := fun fault hasEnded => by
        rw [isAlone, invoke_of_ended hasEnded]
        rfl }

/-- A world with one context and one tool, whose first answer is an error. -/
def oneTool : World where
  tree := .root {}
  catalogue :=
    { entries :=
        [⟨"q", ⟨"q", "", .null, ⟨0, [{ act := .err }]⟩⟩, { category := .custom }⟩] }

theorem oneCall_of_batchContext_oneTool :
    let setup : Setup := { policy := .none, batch := { timeout := none } }
    let begun : World := { oneTool with tree := oneTool.tree.child 0 }
    oneTool.batchContext setup 0 = some (1, begun) ∧
      begun.ended 1 = none ∧
      OneCall 1 (.ofTool "q" .null) oneTool begun
        (oneTool.carryOut setup 0 [.ofTool "q" .null] none 5)
        (oneTool.carryOutInChunks setup 0 [.ofTool "q" .null] 1) :=
  ⟨rfl, by decide +kernel, oneCall_of_batchContext rfl rfl (by decide) 5 1⟩

/-- Under a cancelled context, a call of a tool that is not there comes to one fault alone and
to another as a batch. -/
theorem differs_of_cancelled :
    let setup : Setup := { policy := .none, batch := { timeout := none } }
    let cancelled : World := { tree := (ContextTree.root {}).cancel 0 0 }
    let call : Call := .ofTool "q" .null
    cancelled.ended 0 = some .cancelled ∧
      (cancelled.carryOut setup 0 [call] none 5).1 =
        .calls [call.settle (.error (.toolNotFound "q"))] ∧
      (cancelled.carryOutInChunks setup 0 [call] 1).1 =
        .calls [call.settle (.error .cancelled)] := by
  decide +kernel

end World

end Rehearsal

end Runbook
