import Runbook.Proofs.Rehearsal.Bystanders
import Runbook.Proofs.Rehearsal.Lone

namespace Runbook

/-!
# Rehearsals are courses

A rehearsal fixes who takes a turn, how tools behave and when time passes.  Every turn is
a number of steps that the tasks and the collector may take, so whatever a rehearsal comes
to, a course of the same batch comes to as well.  What holds of all courses holds of every
rehearsal.
-/

namespace Course

variable {policy : RetryPolicy}

/-- What happens to an invocation may happen to the task that makes it. -/
theorem exists_of_standing
    {course : Course}
    {index : Nat}
    {task : BatchTask}
    {stage : Stage String}
    (found : course.batch.tasks[index]? = some task)
    (running : task.place = .running stage)
    {standing : Standing}
    (reaches :
      Standing.Reaches policy task.call.name ⟨course.ended, stage⟩ standing) :
    ∃ next, Reaches policy course next ∧
      next.batch = course.batch.begin index standing.stage ∧
        next.ended = standing.ended := by
  induction reaches with
  | refl =>
      refine ⟨course, .refl, ?_, rfl⟩
      rw [Batch.begin, ← running, Batch.move_self found]
  | tail _ moves inductionHypothesis =>
      obtain ⟨middle, reachesMiddle, sameBatch, sameEnd⟩ := inductionHypothesis
      cases moves with
      | @proceed ended before later proceeds =>
          have middleFound :
              middle.batch.tasks[index]? = some { task with place := .running before } := by
            rw [sameBatch]
            exact Batch.getElem?_move_self found _
          have goesOn : Stage.Proceeds policy task.call.name middle.ended before later := by
            rw [sameEnd]
            exact proceeds
          refine ⟨middle.enter index [] later,
            reachesMiddle.tail (.step (.proceed middleFound rfl goesOn)), ?_, sameEnd⟩
          simp only [enter, sameBatch]
          exact Batch.move_move _ _ _ _
      | @outside ended fault before ends =>
          have middleEnds : ContextEnds middle.ended fault := by
            rw [sameEnd]
            exact ends
          exact ⟨middle.endContext fault, reachesMiddle.tail (.outside middleEnds),
            sameBatch, rfl⟩

/-- A course may come to this batch, its context having ended like this. -/
def Comes
    (policy : RetryPolicy) (start : Course) (batch : Batch) (ended : Option Fault) : Prop :=
  ∃ course, Reaches policy start course ∧ course.batch = batch ∧ course.ended = ended

namespace Comes

variable {start : Course} {batch : Batch} {ended : Option Fault}

theorem goes
    (comes : Comes policy start batch ended)
    {later : Option Fault}
    (contextGoes : ContextGoes ended later) :
    Comes policy start batch later := by
  cases contextGoes with
  | stays =>
      exact comes
  | ends contextEnds =>
      obtain ⟨course, reaches, rfl, rfl⟩ := comes
      exact ⟨course.endContext _, reaches.tail (.outside contextEnds), rfl, rfl⟩

theorem request
    (comes : Comes policy start batch none)
    {index : Nat}
    {task : BatchTask}
    (found : batch.tasks[index]? = some task)
    (queued : task.place = .queued)
    (outside : index ∉ batch.line) :
    Comes policy start (batch.request index) none := by
  obtain ⟨course, reaches, rfl, goesOn⟩ := comes
  exact ⟨course.request index,
    reaches.tail (.step (.request found queued goesOn outside)), rfl, goesOn⟩

theorem giveUp
    {fault : Fault}
    (comes : Comes policy start batch (some fault))
    {index : Nat}
    {task : BatchTask}
    (found : batch.tasks[index]? = some task)
    (waits : task.place = .queued ∨ task.place = .granted) :
    Comes policy start (batch.giveUp index fault) (some fault) := by
  obtain ⟨course, reaches, rfl, hasEnded⟩ := comes
  exact ⟨course.giveUp index fault,
    reaches.tail (.step (.giveUp found waits hasEnded)), rfl, hasEnded⟩

theorem begin
    (comes : Comes policy start batch none)
    {index : Nat}
    {task : BatchTask}
    (found : batch.tasks[index]? = some task)
    (granted : task.place = .granted)
    {stage : Stage String}
    (opens : Stage.Opens task.call.name none stage) :
    Comes policy start (batch.begin index stage) none := by
  obtain ⟨course, reaches, rfl, goesOn⟩ := comes
  rw [← goesOn] at opens
  exact ⟨course.enter index [.began index] stage,
    reaches.tail (.step (.begin found granted goesOn opens)), rfl, goesOn⟩

theorem proceed
    (comes : Comes policy start batch ended)
    {index : Nat}
    {task : BatchTask}
    {stage : Stage String}
    (found : batch.tasks[index]? = some task)
    (running : task.place = .running stage)
    {standing : Standing}
    (invocation :
      Standing.Reaches policy task.call.name ⟨ended, stage⟩ standing) :
    Comes policy start (batch.begin index standing.stage) standing.ended := by
  obtain ⟨course, reaches, rfl, rfl⟩ := comes
  obtain ⟨next, later, sameBatch, sameEnd⟩ := exists_of_standing found running invocation
  exact ⟨next, reaches.trans later, sameBatch, sameEnd⟩

theorem finish
    (comes : Comes policy start batch ended)
    {index : Nat}
    {task : BatchTask}
    {ending : Ending String}
    (found : batch.tasks[index]? = some task)
    (running : task.place = .running (.ended ending)) :
    let finished := batch.finish index ending ended
    Comes policy start finished.2 (if finished.1 then some .cancelled else ended) := by
  obtain ⟨course, reaches, rfl, rfl⟩ := comes
  exact ⟨course.finish index task ending,
    reaches.tail (.step (.finish found running)), rfl, rfl⟩

theorem permitted
    {calls : List Call}
    {schedule : Schedule}
    {limit : Nat}
    {failFast : Bool}
    (comes :
      Comes policy { batch := .start calls schedule limit failFast } batch ended) :
    batch.Permitted limit := by
  obtain ⟨course, reaches, rfl, _⟩ := comes
  exact (Carries.of_reaches reaches).permitted

/-- The collector starts what is ready.  Unless it looks for the first time it has done so
already, and then nothing is ready. -/
theorem dispatch
    {calls : List Call}
    {schedule : Schedule}
    {limit : Nat}
    {failFast : Bool}
    (sameRanks : schedule.ranks.length = calls.length)
    (sameAwaited : schedule.awaited.length = calls.length)
    (comes :
      Comes policy { batch := .start calls schedule limit failFast } batch ended) :
    Comes policy { batch := .start calls schedule limit failFast }
      (batch.dispatch ended) ended := by
  obtain ⟨course, reaches, rfl, rfl⟩ := comes
  cases opened : course.opened with
  | false =>
      exact ⟨course.look, reaches.tail (.step (.look opened)), rfl, rfl⟩
  | true =>
      have orderly := orderly_of_reaches sameRanks sameAwaited reaches
      refine ⟨course, reaches, ?_, rfl⟩
      cases ended : course.ended with
      | some fault =>
          rfl
      | none =>
          exact (Batch.dispatch_of_not_isReady (orderly.prompt opened ended)).symm

/-- The collector stores a call and starts what is ready now. -/
theorem collect
    (comes : Comes policy start batch ended)
    {index : Nat}
    {task : BatchTask}
    {call : Call}
    {began : Bool}
    (found : batch.tasks[index]? = some task)
    (returned : task.place = .returned call began) :
    Comes policy start ((batch.collect index).dispatch ended) ended := by
  obtain ⟨course, reaches, rfl, rfl⟩ := comes
  exact ⟨course.collect index, reaches.tail (.step (.collect found returned)), rfl, rfl⟩

end Comes

end Course

namespace Rehearsal.Scene

/-- A rehearsal stands where a course may have come to. -/
structure Follows (policy : RetryPolicy) (start : Course) (scene : Scene) : Prop where
  sound :
    Sound scene
  comes :
    Course.Comes policy start scene.batch scene.ended

variable {setup : Setup} {scene : Scene} {calls : List Call} {schedule : Schedule}
  {limit : Nat} {failFast : Bool}

/-- It does not matter who is ready. -/
theorem Follows.replace
    {start : Course}
    (follows : Follows setup.policy start scene)
    (ready : List Actor) :
    Follows setup.policy start { scene with ready := ready } :=
  ⟨follows.sound.replace rfl ready, follows.comes⟩

/-- Time that passes may end the context. -/
theorem Follows.goTo
    {start : Course}
    (follows : Follows setup.policy start scene)
    (instant : Instant) :
    Follows setup.policy start { scene with world := scene.world.goTo instant } := by
  have leads := World.leads_goTo scene.context scene.world instant
  exact ⟨follows.sound.replace leads.sameSize scene.ready, follows.comes.goes leads.goes⟩

/-- The end of a task cancels the context if it trips the batch, and changes no other part
of the world. -/
theorem exists_endTask
    (inTree : scene.context < scene.world.tree.size)
    (index : Nat)
    (ending : Ending String) :
    let finished := scene.batch.finish index ending scene.ended
    ∃ (world : World) (ready : List Actor),
      scene.endTask index ending =
          { scene with
            world := world
            batch := finished.2
            waits := scene.waits.filter (·.1 != index)
            returned := scene.returned ++ [index]
            ready := ready } ∧
        world.tree.size = scene.world.tree.size ∧
          world.ended scene.context =
            if finished.1 then some .cancelled else scene.ended := by
  cases result : scene.batch.finish index ending scene.ended with
  | mk tripped batch =>
      simp only [endTask, result]
      generalize inWorld : (if tripped then _ else scene.world) = world
      obtain ⟨_, wokenOnEnd⟩ :=
        exists_wakeOnEnd { scene with world := world, batch := batch } scene.ended
      obtain ⟨_, granted⟩ :=
        exists_wakeAll _ (newlyGranted scene.batch batch)
      obtain ⟨ready, handedOver⟩ := exists_handOver _ index
      rw [wokenOnEnd, granted, handedOver, ← inWorld]
      refine ⟨_, ready, rfl, ?_⟩
      cases tripped with
      | false =>
          exact ⟨rfl, rfl⟩
      | true =>
          exact ⟨ContextTree.size_cancel _ _ _,
            ContextTree.ended_cancel_self inTree scene.world.now⟩

/-- A task whose invocation is over comes to its end. -/
theorem follows_endTask
    {index : Nat}
    {task : BatchTask}
    {ending : Ending String}
    (sound : Sound scene)
    (found : scene.batch.tasks[index]? = some task)
    (notReturned : ∀ call began, task.place ≠ .returned call began)
    (comes :
      Course.Comes setup.policy { batch := .start calls schedule limit failFast }
        (scene.batch.begin index (.ended ending)) scene.ended) :
    Follows setup.policy { batch := .start calls schedule limit failFast }
      (scene.endTask index ending) := by
  have permitted := comes.permitted
  have begun :
      (scene.batch.begin index (.ended ending)).tasks[index]? =
        some { task with place := .running (.ended ending) } :=
    Batch.getElem?_move_self found _
  have finished := comes.finish begun rfl
  have last := Batch.finish_self permitted begun rfl ending scene.ended
  have spares :=
    Batch.Spares.trans (Batch.spares_begin scene.batch index (.ended ending))
      (Batch.spares_finish permitted begun ending scene.ended)
  rw [Batch.finish_begin found] at finished last spares
  obtain ⟨world, ready, isEnded, sameSize, stands⟩ :=
    exists_endTask sound.inTree index ending
  rw [isEnded]
  refine ⟨sound.handOver found notReturned spares last rfl sameSize ready, ?_⟩
  change Course.Comes _ _ _ (world.ended scene.context)
  rw [stands]
  exact finished

/-- A task whose invocation is taken on waits again or comes to its end. -/
theorem follows_goOn
    {index : Nat}
    {task : BatchTask}
    {invocation : Invocation}
    {stage : Stage String}
    {wait : Option Wait}
    (sound : Sound scene)
    (found : scene.batch.tasks[index]? = some task)
    (notReturned : ∀ call began, task.place ≠ .returned call began)
    (sameName : invocation.name = task.call.name)
    (goesOn : ∀ ending, stage ≠ .ended ending)
    (mayAttempt : ∀ attempt, stage = .attempting attempt →
      Wait.suits stage wait = true ∨ scene.ended = none)
    (comes :
      Course.Comes setup.policy { batch := .start calls schedule limit failFast }
        (scene.batch.begin index stage) scene.ended) :
    Follows setup.policy { batch := .start calls schedule limit failFast }
      (scene.goOn setup index invocation stage wait) := by
  have begun :
      (scene.batch.begin index stage).tasks[index]? =
        some { task with place := .running stage } :=
    Batch.getElem?_move_self found _
  have advances (breaksDown : Bool) :=
    reaches_advance setup invocation breaksDown (advanceFuel setup) stage wait scene.world
      sound.inTree mayAttempt
  have rests :=
    rests_advance setup scene.context invocation (advanceFuel setup) stage wait scene.world
      (needed_le setup.policy.attempts stage wait)
  cases advanced :
      advance setup scene.context invocation (advanceFuel setup) stage wait scene.world with
  | mk later rest =>
      obtain ⟨laterWait, world⟩ := rest
      simp only [advanced] at advances rests
      have reachesStage (breaksDown : Bool) :
          Course.Comes setup.policy { batch := .start calls schedule limit failFast }
            (scene.batch.begin index (later.reported breaksDown))
            (world.ended scene.context) := by
        have reaches := (advances breaksDown).2
        rw [reported_of_goesOn goesOn, sameName] at reaches
        have proceeded := comes.proceed begun rfl reaches
        simp only [Batch.begin, Batch.move_move] at proceeded
        exact proceeded
      have sameSize : world.tree.size = scene.world.tree.size :=
        (advances false).1
      obtain ⟨ready, woken⟩ :=
        exists_wakeOnEnd { scene with world := world } scene.ended
      simp only [goOn, advanced, woken]
      cases later with
      | ended ending =>
          obtain ⟨sameTree, sameNow, breaksDown, isReported⟩ :=
            World.exists_reported invocation.name ending world
          let final := ((World.gate invocation.name).report ending world).2
          have sameEnd : final.ended scene.context = world.ended scene.context := by
            simp only [final, World.ended, sameTree, sameNow]
          have finalSize : final.tree.size = scene.world.tree.size := by
            rw [sameTree, sameSize]
          have isOver := reachesStage breaksDown
          rw [Stage.reported, ← isReported, ← sameEnd] at isOver
          exact follows_endTask (sound.replace finalSize ready) found notReturned isOver
      | attempting attempt =>
          have suits : Wait.suits (.attempting attempt) laterWait = true := by
            rcases rests with ⟨_, isEnded⟩ | suits
            · cases isEnded
            · exact suits
          exact ⟨sound.goOn found notReturned sameName suits sameSize ready,
            reachesStage false⟩
      | resting attempt =>
          have suits : Wait.suits (.resting attempt) laterWait = true := by
            rcases rests with ⟨_, isEnded⟩ | suits
            · cases isEnded
            · exact suits
          exact ⟨sound.goOn found notReturned sameName suits sameSize ready,
            reachesStage false⟩

/-- A task that was granted its permit begins its call while the context goes on. -/
theorem follows_beginTask
    {index : Nat}
    {task : BatchTask}
    (follows : Follows setup.policy { batch := .start calls schedule limit failFast } scene)
    (found : scene.batch.tasks[index]? = some task)
    (granted : task.place = .granted)
    (goesOn : scene.ended = none) :
    Follows setup.policy { batch := .start calls schedule limit failFast }
      (scene.beginTask setup index) := by
  have notReturned : ∀ call began, task.place ≠ .returned call began := by
    simp [granted]
  have comes := follows.comes
  rw [goesOn] at comes
  simp only [beginTask, found]
  cases opened :
      scene.world.openInvocation scene.context task.call.name task.call.input with
  | mk opening world =>
      obtain ⟨sameTree, sameNow, opens⟩ :=
        World.opens_openInvocation scene.context task.call.name task.call.input scene.world
      simp only [opened] at sameTree sameNow opens
      have sameEnd : world.ended scene.context = none := by
        simp only [World.ended, sameTree, sameNow]
        exact goesOn
      have sound : Sound { scene with world := world } :=
        follows.sound.replace (by rw [sameTree]) scene.ready
      have worldGoesOn : scene.world.ended scene.context = none := goesOn
      rw [worldGoesOn] at opens
      rcases opens with ⟨fault, isRefused, refused⟩ | ⟨tool, isAdmitted⟩
      · simp only [isRefused]
        apply follows_endTask sound found notReturned
        change Course.Comes _ _ _ (world.ended scene.context)
        rw [sameEnd]
        exact comes.begin found granted refused
      · simp only [isAdmitted]
        apply follows_goOn sound found notReturned rfl
        · intro ending isEnded
          cases isEnded
        · intro attempt _
          exact Or.inr sameEnd
        · change Course.Comes _ _ _ (world.ended scene.context)
          rw [sameEnd]
          exact comes.begin found granted .admitted

/-- A task gives up on its permit once the context has ended. -/
theorem follows_giveUp
    {index : Nat}
    {task : BatchTask}
    {fault : Fault}
    (follows : Follows setup.policy { batch := .start calls schedule limit failFast } scene)
    (found : scene.batch.tasks[index]? = some task)
    (waits : task.place = .queued ∨ task.place = .granted)
    (hasEnded : scene.ended = some fault) :
    Follows setup.policy { batch := .start calls schedule limit failFast }
      (scene.giveUp index fault) := by
  have permitted := follows.comes.permitted
  have comes := follows.comes
  rw [hasEnded] at comes
  have notReturned : ∀ call began, task.place ≠ .returned call began := by
    rcases waits with queued | granted
    · simp [queued]
    · simp [granted]
  obtain ⟨_, granted⟩ :=
    exists_wakeAll { scene with batch := scene.batch.giveUp index fault }
      (newlyGranted scene.batch (scene.batch.giveUp index fault))
  obtain ⟨ready, handedOver⟩ := exists_handOver _ index
  rw [giveUp, granted, handedOver]
  refine ⟨follows.sound.handOver found notReturned
    (Batch.spares_giveUp permitted found waits fault)
    (Batch.giveUp_self permitted found waits fault) rfl rfl ready, ?_⟩
  change Course.Comes _ _ _ scene.ended
  rw [hasEnded]
  exact comes.giveUp found waits

/-- A task that asks for a permit begins its call if it is granted one at once. -/
theorem follows_request
    {index : Nat}
    {task : BatchTask}
    (follows : Follows setup.policy { batch := .start calls schedule limit failFast } scene)
    (found : scene.batch.tasks[index]? = some task)
    (queued : task.place = .queued)
    (goesOn : scene.ended = none)
    (outside : index ∉ scene.batch.line) :
    Follows setup.policy { batch := .start calls schedule limit failFast }
      { scene with batch := scene.batch.request index } := by
  refine ⟨follows.sound.request found queued, ?_⟩
  have comes := follows.comes
  rw [goesOn] at comes
  change Course.Comes _ _ _ scene.ended
  rw [goesOn]
  exact comes.request found queued outside

/-- Whatever a task does in its turn, a course may come to. -/
theorem follows_taskTurn
    (follows : Follows setup.policy { batch := .start calls schedule limit failFast } scene)
    (index : Nat) :
    Follows setup.policy { batch := .start calls schedule limit failFast }
      (scene.taskTurn setup index) := by
  cases found : scene.batch.tasks[index]? with
  | none =>
      have nowhere : scene.batch.place? index = none := by
        simp [Batch.place?, found]
      simp only [taskTurn, nowhere]
      exact follows
  | some task =>
      have isThere : scene.batch.place? index = some task.place := by
        simp [Batch.place?, found]
      cases placed : task.place with
      | queued =>
          simp only [taskTurn, isThere, placed, done_eq_ended]
          cases ended : scene.ended with
          | some fault =>
              exact follows_giveUp follows found (Or.inl placed) ended
          | none =>
              by_cases inLine : index ∈ scene.batch.line
              · simp only [inLine, if_true]
                exact follows
              · have asks := follows_request follows found placed ended inLine
                simp only [inLine, if_false]
                split
                case isTrue isGranted =>
                  obtain ⟨granted, grantedFound, isGrantedSo⟩ :=
                    Option.map_eq_some_iff.mp (beq_iff_eq.mp isGranted)
                  exact follows_beginTask asks grantedFound isGrantedSo ended
                case isFalse =>
                  exact asks
      | granted =>
          simp only [taskTurn, isThere, placed, done_eq_ended]
          cases ended : scene.ended with
          | some fault =>
              exact follows_giveUp follows found (Or.inr placed) ended
          | none =>
              exact follows_beginTask follows found placed ended
      | running stage =>
          simp only [taskTurn, isThere, placed]
          cases entry : scene.waits.find? (·.1 == index) with
          | none =>
              exact follows
          | some known =>
              obtain ⟨owner, invocation, wait⟩ := known
              have isOwner : owner = index := by
                simpa using List.find?_some entry
              obtain ⟨other, otherStage, otherFound, running, sameName, suits⟩ :=
                follows.sound.invoked owner invocation wait (List.mem_of_find?_eq_some entry)
              rw [isOwner, found] at otherFound
              cases otherFound
              rw [placed] at running
              cases running
              have goesOn : ∀ ending, stage ≠ .ended ending := by
                intro ending isEnded
                rw [isEnded] at suits
                cases suits
              apply follows_goOn follows.sound found (by simp [placed]) sameName goesOn
              · intro attempt _
                exact Or.inl suits
              · rw [Batch.begin, ← placed, Batch.move_self found]
                exact follows.comes
      | held =>
          simp only [taskTurn, isThere, placed]
          exact follows
      | returned call began =>
          simp only [taskTurn, isThere, placed]
          exact follows
      | collected call =>
          simp only [taskTurn, isThere, placed]
          exact follows

section

variable (sameRanks : schedule.ranks.length = calls.length)
  (sameAwaited : schedule.awaited.length = calls.length)

include sameRanks sameAwaited in
/-- The collector starts what is ready. -/
theorem follows_dispatch
    (follows : Follows setup.policy { batch := .start calls schedule limit failFast } scene) :
    Follows setup.policy { batch := .start calls schedule limit failFast }
      scene.dispatch := by
  obtain ⟨ready, dispatched⟩ := scene.exists_dispatch
  rw [dispatched]
  exact ⟨follows.sound.dispatch.replace rfl ready,
    follows.comes.dispatch sameRanks sameAwaited⟩

/-- The collector stores the first call that has returned and starts what is ready now. -/
theorem follows_collect
    {index : Nat}
    {rest : List Nat}
    (follows : Follows setup.policy { batch := .start calls schedule limit failFast } scene)
    (first : scene.returned = index :: rest) :
    Follows setup.policy { batch := .start calls schedule limit failFast }
      ({ scene with batch := scene.batch.collect index, returned := rest } :
        Scene).dispatch := by
  obtain ⟨task, call, began, found, returned⟩ :=
    follows.sound.returned index (by simp [first])
  have sound := follows.sound.collect first
  obtain ⟨ready, dispatched⟩ :=
    exists_dispatch { scene with batch := scene.batch.collect index, returned := rest }
  rw [dispatched]
  exact ⟨sound.dispatch.replace rfl ready, follows.comes.collect found returned⟩

/-- With as many turns as calls have returned, the collector stores them all and starts
what is ready after each. -/
theorem follows_collectorTurn
    (fuel : Nat)
    (enough : scene.returned.length < fuel)
    (follows :
      Follows setup.policy { batch := .start calls schedule limit failFast } scene.dispatch) :
    Follows setup.policy { batch := .start calls schedule limit failFast }
      (collectorTurn fuel scene) := by
  induction fuel generalizing scene with
  | zero =>
      omega
  | succ fuel inductionHypothesis =>
      obtain ⟨ready, dispatched⟩ := scene.exists_dispatch
      have sameReturned : scene.dispatch.returned = scene.returned := by
        rw [dispatched]
      rw [collectorTurn]
      split
      case h_1 =>
        exact follows
      case h_2 index rest first =>
        rw [← sameReturned, first, List.length_cons] at enough
        have fewer : rest.length < fuel := by
          omega
        exact inductionHypothesis fewer (follows_collect follows first)

include sameRanks sameAwaited in
/-- Whoever takes a turn, a course may come to what it leads to. -/
theorem follows_turn
    (follows : Follows setup.policy { batch := .start calls schedule limit failFast } scene)
    (actor : Actor) :
    Follows setup.policy { batch := .start calls schedule limit failFast }
      (scene.turn setup actor) := by
  cases actor with
  | collector =>
      apply follows_collectorTurn
      · exact Nat.lt_succ_of_le follows.sound.length_returned_le
      · exact follows_dispatch sameRanks sameAwaited follows
  | task index =>
      exact follows_taskTurn follows index

include sameRanks sameAwaited in
/-- Whatever a rehearsal comes to, however long it goes on, a course may come to. -/
theorem follows_run
    (fuel : Nat)
    (follows : Follows setup.policy { batch := .start calls schedule limit failFast } scene) :
    Follows setup.policy { batch := .start calls schedule limit failFast }
      (run setup fuel scene) := by
  induction fuel generalizing scene with
  | zero =>
      exact follows
  | succ fuel inductionHypothesis =>
      rw [run]
      split
      case h_1 actor rest isNext =>
        exact inductionHypothesis
          (follows_turn sameRanks sameAwaited (follows.replace rest) actor)
      case h_2 =>
        split
        · exact follows
        · split
          · exact follows
          case h_2 instant isNext =>
            obtain ⟨ready, woken⟩ :=
              exists_wakeAll { scene with world := scene.world.goTo instant }
                (({ scene with world := scene.world.goTo instant } :
                  Scene).dueTasks.map .task)
            dsimp only
            rw [woken]
            exact inductionHypothesis ((follows.goTo instant).replace ready)

end

/-- A rehearsal starts where courses start. -/
theorem follows_start
    (policy : RetryPolicy)
    (calls : List Call)
    (schedule : Schedule)
    (limit : Nat)
    (failFast : Bool)
    {context : Nat}
    {world : World}
    (inTree : context < world.tree.size) :
    Follows policy { batch := .start calls schedule limit failFast }
      { world := world
        batch := .start calls schedule limit failFast
        context := context } := by
  refine ⟨⟨inTree, ?_, ?_, List.nodup_nil⟩, ?_⟩
  · intro index invocation wait member
    cases member
  · intro index member
    cases member
  · -- The context may have ended before the batch starts.
    have start :
        Course.Comes policy { batch := .start calls schedule limit failFast }
          (.start calls schedule limit failFast) none :=
      ⟨_, .refl, rfl, rfl⟩
    apply start.goes
    cases ended : world.ended context with
    | none =>
        simpa only [Scene.ended, ended] using ContextGoes.stays
    | some fault =>
        have endsContext := ContextTree.endsContext_of_ended ended
        simpa only [Scene.ended, ended] using ContextGoes.ends (.first endsContext)

/-- The calls after a rehearsed batch are those after a course of it, and its context has
ended or goes on as in that course. -/
theorem perform_follows
    (setup : Setup)
    (sameRanks : schedule.ranks.length = calls.length)
    (sameAwaited : schedule.awaited.length = calls.length)
    (limit : Nat)
    (failFast : Bool)
    {context : Nat}
    {world : World}
    (inTree : context < world.tree.size) :
    ∃ course,
      Course.Reaches setup.policy { batch := .start calls schedule limit failFast } course ∧
        (perform setup context (.start calls schedule limit failFast) world).1 =
          course.batch.results course.ended ∧
        course.ended =
          (perform setup context (.start calls schedule limit failFast) world).2.ended
            context := by
  let started : Scene :=
    { world := world, batch := .start calls schedule limit failFast, context := context }
  let fuel := runFuel setup started.batch.tasks.length
  have follows : Follows setup.policy _ (run setup fuel started) :=
    follows_run sameRanks sameAwaited fuel
      (follows_start setup.policy calls schedule limit failFast inTree)
  obtain ⟨course, reaches, sameBatch, sameEnd⟩ := follows.comes
  refine ⟨course, reaches, ?_, ?_⟩
  · rw [sameBatch, sameEnd]
    rfl
  · have drifts : started.Drifts (run setup fuel started) := drifts_run fuel started
    rw [sameEnd, Scene.ended, drifts.sameContext]
    rfl

end Rehearsal.Scene

namespace Rehearsal.World

/-- The context under which calls were carried out has ended for a reason, or goes on. -/
def EndsUnder (setup : Setup) (context : Nat) (world later : World) (ended : Option Fault) :
    Prop :=
  ∃ id begun, world.batchContext setup context = some (id, begun) ∧ ended = later.ended id

/-- A batch has a context of its own only if its timeout can be counted from now. -/
theorem exists_limit_of_batchContext
    {setup : Setup}
    {context : Nat}
    {world : World}
    {begun : Nat × World}
    (made : world.batchContext setup context = some begun) :
    ∃ until_, setup.batch.limit? world.now = some until_ :=
  (Option.map_eq_some_iff.mp made).imp fun _ isMade => isMade.1

/-- What a rehearsal returns for one call is what carrying it out may return. -/
theorem carryOut_alone_returns
    {setup : Setup}
    {context : Nat}
    {call : Call}
    {table : Option (List (String × List String))}
    {limit : Nat}
    {world later : World}
    {answers : List Call}
    (carried : world.carryOut setup context [call] table limit = (.calls answers, later)) :
    ∃ conduct,
      Conduct.Reaches setup.policy (.start setup.batch [call] table limit world.now) conduct ∧
        conduct.Returns (.calls answers) ∧
          EndsUnder setup context world later conduct.ended := by
  cases made : Execution.scheduleOf [call] table with
  | error fault =>
      simp only [carryOut, Execution.of, made, Prod.mk.injEq, reduceCtorEq, false_and]
        at carried
  | ok schedule =>
      simp only [carryOut, Execution.of, made] at carried
      split at carried
      case h_1 =>
        cases carried
      case h_2 id begun isContext =>
        obtain ⟨until_, timed⟩ := exists_limit_of_batchContext isContext
        simp only [Conduct.start, Execution.of, made, timed]
        have reaches :=
          reaches_invoke setup call (inTree_of_batchContext isContext)
        -- The context may have ended before the call begins.
        have started :
            Conduct.Reaches setup.policy (.alone { call := call })
              (.alone { call := call, ended := begun.ended id }) := by
          cases ended : begun.ended id with
          | none =>
              exact .refl
          | some fault =>
              exact .single
                (.aloneOutside (.first (ContextTree.endsContext_of_ended ended)))
        cases carried
        exact ⟨_, started.trans reaches, .alone rfl, id, begun, isContext, rfl⟩

/-- The calls that a rehearsal returns for calls side by side are those after a course of
these calls: what holds of all courses holds of every rehearsal. -/
theorem carryOut_follows
    {setup : Setup}
    {context : Nat}
    {calls : List Call}
    {table : Option (List (String × List String))}
    {limit : Nat}
    {world later : World}
    {answers : List Call}
    (several : 2 ≤ calls.length)
    (carried : world.carryOut setup context calls table limit = (.calls answers, later)) :
    ∃ course,
      Conduct.Reaches setup.policy (.start setup.batch calls table limit world.now)
          (.together course) ∧
        answers = course.batch.results course.ended ∧
          EndsUnder setup context world later course.ended := by
  match calls with
  | [] =>
      simp at several
  | [_] =>
      simp at several
  | first :: second :: others =>
      cases made : Execution.scheduleOf (first :: second :: others) table with
      | error fault =>
          simp only [carryOut, Execution.of, made, Prod.mk.injEq, reduceCtorEq, false_and]
            at carried
      | ok schedule =>
          simp only [carryOut, Execution.of, made] at carried
          split at carried
          case h_1 =>
            cases carried
          case h_2 id begun isContext =>
            obtain ⟨until_, timed⟩ := exists_limit_of_batchContext isContext
            simp only [Conduct.start, Execution.of, made, timed]
            split at carried
            case isTrue =>
              cases carried
            case isFalse fits =>
              have awaits := Execution.awaits_scheduleOf made
              obtain ⟨course, reaches, sameCalls, sameEnd⟩ :=
                Scene.perform_follows setup awaits.1 awaits.2.1 (max limit 1)
                  (!setup.batch.continueOnError) (inTree_of_batchContext isContext)
              rw [if_neg fits]
              cases carried
              exact ⟨course, Conduct.reaches_together reaches, sameCalls, id, begun, isContext,
                sameEnd⟩

end Rehearsal.World

end Runbook
