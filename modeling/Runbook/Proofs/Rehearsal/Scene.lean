import Runbook.Proofs.Batch.Readiness
import Runbook.Proofs.Rehearsal.Invocation
import Runbook.Rehearsal.Scene

namespace Runbook

/-!
# What a rehearsed batch remembers

Beside the batch a rehearsal keeps which invocations are under way and which tasks have
returned.  Both agree with the places of the tasks: whatever one task does, the other
tasks stay where they are, but for those that are started or granted a permit.
-/

namespace TaskPlace

/-- Whether a task at this place was granted a permit or is over. -/
def isServed : TaskPlace → Bool
  | held => false
  | queued => false
  | _ => true

theorem isServed_of_running
    {place : TaskPlace}
    {stage : Stage String}
    (running : place = .running stage) :
    place.isServed = true := by
  rw [running]
  rfl

theorem isServed_of_returned
    {place : TaskPlace}
    {call : Call}
    {began : Bool}
    (returned : place = .returned call began) :
    place.isServed = true := by
  rw [returned]
  rfl

end TaskPlace

namespace Batch

variable {limit : Nat} {batch : Batch}

/-- Apart from one, the tasks that were served stay where they are. -/
def Spares (index : Nat) (batch next : Batch) : Prop :=
  ∀ (other : Nat) (task : BatchTask),
    index ≠ other →
    batch.tasks[other]? = some task →
    task.place.isServed = true →
    next.tasks[other]? = some task

theorem spares_move
    (batch : Batch)
    (index : Nat)
    (place : TaskPlace) :
    Spares index batch (batch.move index place) := by
  intro other task different found _
  rw [getElem?_move_of_ne batch different]
  exact found

theorem spares_begin
    (batch : Batch)
    (index : Nat)
    (stage : Stage String) :
    Spares index batch (batch.begin index stage) :=
  spares_move batch index _

theorem spares_passOn
    (permitted : batch.Permitted limit)
    (index : Nat)
    (place : TaskPlace) :
    Spares index batch (batch.move index place).release := by
  intro other task different found served
  rcases passOn_other permitted different found place with same | ⟨queued, _⟩
  · exact same
  · rw [queued] at served
    cases served

theorem Spares.trans
    {index : Nat}
    {middle last : Batch}
    (first : Spares index batch middle)
    (second : Spares index middle last) :
    Spares index batch last := by
  intro other task different found served
  exact second other task different (first other task different found served) served

theorem spares_request
    (batch : Batch)
    (index : Nat) :
    Spares index batch (batch.request index) := by
  by_cases free : 0 < batch.permits
  · rw [request_of_free free]
    exact spares_move { batch with permits := batch.permits - 1 } index .granted
  · rw [request_of_full (Nat.eq_zero_of_not_pos free)]
    intro other task _ found _
    exact found

theorem spares_giveUp
    (permitted : batch.Permitted limit)
    {index : Nat}
    {task : BatchTask}
    (found : batch.tasks[index]? = some task)
    (waits : task.place = .queued ∨ task.place = .granted)
    (fault : Fault) :
    Spares index batch (batch.giveUp index fault) := by
  rcases waits with queued | granted
  · rw [giveUp_of_queued found queued]
    exact spares_move { batch with line := batch.line.filter (· != index) } index _
  · rw [giveUp_of_granted found granted]
    exact spares_passOn permitted index _

/-- A task that gives up has returned. -/
theorem giveUp_self
    (permitted : batch.Permitted limit)
    {index : Nat}
    {task : BatchTask}
    (found : batch.tasks[index]? = some task)
    (waits : task.place = .queued ∨ task.place = .granted)
    (fault : Fault) :
    (batch.giveUp index fault).tasks[index]? =
      some { task with
        place := .returned (task.call.settle (.error fault)) false } := by
  rcases waits with queued | granted
  · rw [giveUp_of_queued found queued]
    exact getElem?_move_self found _
  · rw [giveUp_of_granted found granted]
    exact passOn_self permitted found (by rw [granted]; rfl) _

theorem spares_finish
    (permitted : batch.Permitted limit)
    {index : Nat}
    {task : BatchTask}
    (found : batch.tasks[index]? = some task)
    (ending : Ending String)
    (ended : Option Fault) :
    Spares index batch (batch.finish index ending ended).2 := by
  rw [finish_of_getElem? found]
  intro other task different otherFound served
  exact spares_passOn (permitted.mark _) index _ other task different otherFound served

/-- A task that finishes has returned. -/
theorem finish_self
    (permitted : batch.Permitted limit)
    {index : Nat}
    {task : BatchTask}
    (found : batch.tasks[index]? = some task)
    (holds : task.place.holdsPermit = true)
    (ending : Ending String)
    (ended : Option Fault) :
    (batch.finish index ending ended).2.tasks[index]? =
      some { task with place := .returned (Course.settled task ending) true } := by
  let call := task.call.settle (ending.resultOr (breakdown task.call.name))
  let trippedBy := if batch.trips call ended then some call.id else batch.trippedBy
  rw [finish_of_getElem? found]
  exact passOn_self (permitted.mark trippedBy) found holds _

theorem spares_collect
    {index : Nat}
    {task : BatchTask}
    {call : Call}
    {began : Bool}
    (found : batch.tasks[index]? = some task)
    (returned : task.place = .returned call began) :
    Spares index batch (batch.collect index) := by
  rw [collect_of_returned found returned]
  exact spares_move { batch with tally := batch.tally.lower call.id } index _

/-- A dispatch moves nobody who was served. -/
theorem dispatch_of_isServed
    {index : Nat}
    {task : BatchTask}
    (found : batch.tasks[index]? = some task)
    (served : task.place.isServed = true)
    (ended : Option Fault) :
    (batch.dispatch ended).tasks[index]? = some task := by
  rcases dispatch_task found ended with same | ⟨held, _, _, _⟩
  · exact same
  · rw [held] at served
    cases served

/-- Nothing happens when no task that is held is ready. -/
theorem dispatch_of_not_isReady
    (notReady : ∀ (index : Nat) (task : BatchTask),
      batch.tasks[index]? = some task →
      task.place = .held →
      batch.isReady task = false) :
    batch.dispatch none = batch := by
  have noneReady : batch.readyTasks = [] := by
    rw [readyTasks, List.filter_eq_nil_iff]
    intro index _
    cases found : batch.tasks[index]? with
    | none =>
        simp
    | some task =>
        by_cases held : task.place = .held
        · simp [notReady index task found held]
        · simp [held]
  rw [dispatch, noneReady]
  rfl

/-- Moving a task twice is moving it to the second place. -/
theorem move_move
    (batch : Batch)
    (index : Nat)
    (first second : TaskPlace) :
    (batch.move index first).move index second = batch.move index second := by
  have sameTasks :
      ((batch.move index first).move index second).tasks =
        (batch.move index second).tasks := by
    apply List.ext_getElem?
    intro other
    rw [getElem?_move, getElem?_move, getElem?_move]
    split
    · rw [Option.map_map]
      rfl
    · rfl
  simp only [move] at sameTasks ⊢
  rw [sameTasks]

/-- Moving a task to where it is changes nothing. -/
theorem move_self
    {index : Nat}
    {task : BatchTask}
    (found : batch.tasks[index]? = some task) :
    batch.move index task.place = batch := by
  have sameTasks : (batch.move index task.place).tasks = batch.tasks := by
    apply List.ext_getElem?
    intro other
    rw [getElem?_move]
    split
    case isTrue same =>
      rw [← same, found]
      rfl
    case isFalse =>
      rfl
  simp only [move] at sameTasks ⊢
  rw [sameTasks]

/-- How a task ends does not depend on the stage at which it is. -/
theorem finish_begin
    {index : Nat}
    {task : BatchTask}
    (found : batch.tasks[index]? = some task)
    (stage : Stage String)
    (ending : Ending String)
    (ended : Option Fault) :
    (batch.begin index stage).finish index ending ended =
      batch.finish index ending ended := by
  have moved := getElem?_move_self found (.running stage)
  rw [begin, finish_of_getElem? moved, finish_of_getElem? found]
  let call := task.call.settle (ending.resultOr (breakdown task.call.name))
  let marked : Batch :=
    { batch with
      trippedBy := if batch.trips call ended then some call.id else batch.trippedBy }
  exact Prod.ext rfl
    (congrArg release (move_move marked index (.running stage) (.returned call true)))

end Batch

namespace Rehearsal.Scene

variable {scene : Scene}

/-! ### Who is ready -/

theorem exists_wake
    (scene : Scene)
    (actor : Actor) :
    ∃ ready, scene.wake actor = { scene with ready := ready } := by
  unfold wake
  split
  · exact ⟨scene.ready, rfl⟩
  · exact ⟨_, rfl⟩

/-- Making others ready changes nothing else. -/
theorem exists_wakeAll
    (scene : Scene)
    (actors : List Actor) :
    ∃ ready, scene.wakeAll actors = { scene with ready := ready } := by
  induction actors generalizing scene with
  | nil =>
      exact ⟨scene.ready, rfl⟩
  | cons actor rest inductionHypothesis =>
      obtain ⟨woken, isWoken⟩ := scene.exists_wake actor
      obtain ⟨ready, allWoken⟩ :=
        inductionHypothesis { scene with ready := woken }
      refine ⟨ready, ?_⟩
      rw [wakeAll, List.foldl_cons, isWoken]
      exact allWoken

theorem exists_wakeOnEnd
    (scene : Scene)
    (before : Option Fault) :
    ∃ ready, scene.wakeOnEnd before = { scene with ready := ready } := by
  unfold wakeOnEnd
  split
  · exact scene.exists_wakeAll _
  · exact ⟨scene.ready, rfl⟩

/-- A task that is over leaves its invocation and is among those that have returned. -/
theorem exists_handOver
    (scene : Scene)
    (index : Nat) :
    ∃ ready, scene.handOver index =
      { scene with
        waits := scene.waits.filter (·.1 != index)
        returned := scene.returned ++ [index]
        ready := ready } :=
  exists_wake _ _

theorem exists_dispatch
    (scene : Scene) :
    ∃ ready, scene.dispatch =
      { scene with batch := scene.batch.dispatch scene.ended, ready := ready } :=
  exists_wakeAll _ _

/-! ### How far an invocation gets -/

section

variable {setup : Setup} {index : Nat} {invocation : Invocation} {stage later : Stage String}
  {wait laterWait : Option Wait} {after : World}

theorem goOn_of_goesOn
    (advanced :
      advance setup scene.context invocation (advanceFuel setup) stage wait scene.world =
        (later, laterWait, after))
    (goesOn : ∀ ending, later ≠ .ended ending)
    {woken : Scene}
    (isWoken : ({ scene with world := after } : Scene).wakeOnEnd scene.ended = woken) :
    scene.goOn setup index invocation stage wait =
      { woken with
        batch := woken.batch.begin index later
        waits := (index, invocation, laterWait) :: woken.waits.filter (·.1 != index) } := by
  simp only [goOn, advanced, isWoken]

theorem goOn_of_ended
    {ending : Ending String}
    (advanced :
      advance setup scene.context invocation (advanceFuel setup) stage wait scene.world =
        (.ended ending, laterWait, after))
    {woken : Scene}
    (isWoken : ({ scene with world := after } : Scene).wakeOnEnd scene.ended = woken) :
    scene.goOn setup index invocation stage wait =
      ({ woken with world := ((World.gate invocation.name).report ending woken.world).2 } :
        Scene).endTask index ((World.gate invocation.name).report ending woken.world).1 := by
  simp only [goOn, advanced, isWoken]

end

/-! ### What is remembered -/

/-- What is remembered of a batch agrees with the places of its tasks. -/
structure Sound (scene : Scene) : Prop where
  inTree :
    scene.context < scene.world.tree.size
  invoked : ∀ (index : Nat) (invocation : Invocation) (wait : Option Wait),
    (index, invocation, wait) ∈ scene.waits →
    ∃ (task : BatchTask) (stage : Stage String),
      scene.batch.tasks[index]? = some task ∧ task.place = .running stage ∧
        invocation.name = task.call.name ∧ Wait.suits stage wait = true
  returned : ∀ index ∈ scene.returned,
    ∃ (task : BatchTask) (call : Call) (began : Bool),
      scene.batch.tasks[index]? = some task ∧ task.place = .returned call began
  distinct :
    scene.returned.Nodup

namespace Sound

/-- It does not matter who is ready, nor what becomes of a world without a new context. -/
theorem replace
    (sound : Sound scene)
    {world : World}
    (sameSize : world.tree.size = scene.world.tree.size)
    (ready : List Actor) :
    Sound { scene with world := world, ready := ready } :=
  ⟨by rw [sameSize]; exact sound.inTree, sound.invoked, sound.returned, sound.distinct⟩

theorem not_invoked
    (sound : Sound scene)
    {index : Nat}
    {task : BatchTask}
    (found : scene.batch.tasks[index]? = some task)
    (notRunning : ∀ stage, task.place ≠ .running stage)
    (invocation : Invocation)
    (wait : Option Wait) :
    (index, invocation, wait) ∉ scene.waits := by
  intro member
  obtain ⟨other, stage, otherFound, running, _, _⟩ :=
    sound.invoked index invocation wait member
  have same : task = other :=
    Option.some.inj (found.symm.trans otherFound)
  rw [same] at notRunning
  exact notRunning stage running

theorem not_mem_returned
    (sound : Sound scene)
    {index : Nat}
    {task : BatchTask}
    (found : scene.batch.tasks[index]? = some task)
    (notReturned : ∀ call began, task.place ≠ .returned call began) :
    index ∉ scene.returned := by
  intro member
  obtain ⟨other, call, began, otherFound, returned⟩ := sound.returned index member
  have same : task = other :=
    Option.some.inj (found.symm.trans otherFound)
  rw [same] at notReturned
  exact notReturned call began returned

/-- What one task does leaves what is remembered of the others. -/
theorem of_spares
    (sound : Sound scene)
    {index : Nat}
    {next : Scene}
    (inTree : next.context < next.world.tree.size)
    (spares : Batch.Spares index scene.batch next.batch)
    (invoked : ∀ (other : Nat) (invocation : Invocation) (wait : Option Wait),
      (other, invocation, wait) ∈ next.waits →
      (index ≠ other ∧ (other, invocation, wait) ∈ scene.waits) ∨
        ∃ (task : BatchTask) (stage : Stage String),
          next.batch.tasks[other]? = some task ∧ task.place = .running stage ∧
            invocation.name = task.call.name ∧ Wait.suits stage wait = true)
    (hasReturned : ∀ other ∈ next.returned,
      (index ≠ other ∧ other ∈ scene.returned) ∨
        ∃ (task : BatchTask) (call : Call) (began : Bool),
          next.batch.tasks[other]? = some task ∧ task.place = .returned call began)
    (distinct : next.returned.Nodup) :
    Sound next := by
  refine ⟨inTree, ?_, ?_, distinct⟩
  · intro other invocation wait member
    rcases invoked other invocation wait member with ⟨different, before⟩ | here
    · obtain ⟨task, stage, found, running, sameName, suits⟩ :=
        sound.invoked other invocation wait before
      have served := TaskPlace.isServed_of_running running
      exact ⟨task, stage, spares other task different found served, running, sameName,
        suits⟩
    · exact here
  · intro other member
    rcases hasReturned other member with ⟨different, before⟩ | here
    · obtain ⟨task, call, began, found, returned⟩ := sound.returned other before
      have served := TaskPlace.isServed_of_returned returned
      exact ⟨task, call, began, spares other task different found served, returned⟩
    · exact here

/-- A task that comes to its end is no longer invoked and has returned. -/
theorem handOver
    (sound : Sound scene)
    {index : Nat}
    {task later : BatchTask}
    {call : Call}
    {began : Bool}
    {batch : Batch}
    {world : World}
    (found : scene.batch.tasks[index]? = some task)
    (notReturned : ∀ call began, task.place ≠ .returned call began)
    (spares : Batch.Spares index scene.batch batch)
    (laterFound : batch.tasks[index]? = some later)
    (isReturned : later.place = .returned call began)
    (sameSize : world.tree.size = scene.world.tree.size)
    (ready : List Actor) :
    Sound
      { scene with
        world := world
        batch := batch
        waits := scene.waits.filter (·.1 != index)
        returned := scene.returned ++ [index]
        ready := ready } := by
  have inTree : scene.context < world.tree.size := by
    rw [sameSize]
    exact sound.inTree
  apply sound.of_spares inTree spares
  · intro other invocation wait member
    obtain ⟨inWaits, notIndex⟩ := List.mem_filter.mp member
    exact Or.inl ⟨fun same => by simp [same] at notIndex, inWaits⟩
  · intro other member
    rcases List.mem_append.mp member with before | isIndex
    · have different : index ≠ other := by
        intro same
        apply sound.not_mem_returned found notReturned
        rw [same]
        exact before
      exact Or.inl ⟨different, before⟩
    · rw [List.mem_singleton.mp isIndex]
      exact Or.inr ⟨later, call, began, laterFound, isReturned⟩
  · rw [List.nodup_append]
    refine ⟨sound.distinct, by simp, ?_⟩
    intro other member last isLast same
    rw [List.mem_singleton.mp isLast] at same
    rw [same] at member
    exact sound.not_mem_returned found notReturned member

/-- A task that waits during its invocation is at a stage at which it waits for that. -/
theorem goOn
    (sound : Sound scene)
    {index : Nat}
    {task : BatchTask}
    {world : World}
    {invocation : Invocation}
    {stage : Stage String}
    {wait : Option Wait}
    (found : scene.batch.tasks[index]? = some task)
    (notReturned : ∀ call began, task.place ≠ .returned call began)
    (sameName : invocation.name = task.call.name)
    (suits : Wait.suits stage wait = true)
    (sameSize : world.tree.size = scene.world.tree.size)
    (ready : List Actor) :
    Sound
      { scene with
        world := world
        batch := scene.batch.begin index stage
        waits := (index, invocation, wait) :: scene.waits.filter (·.1 != index)
        ready := ready } := by
  have inTree : scene.context < world.tree.size := by
    rw [sameSize]
    exact sound.inTree
  have moved := Batch.getElem?_move_self found (.running stage)
  apply sound.of_spares inTree (Batch.spares_begin scene.batch index stage)
  · intro other thisInvocation thisWait member
    rcases List.mem_cons.mp member with isNew | isOld
    · cases isNew
      exact Or.inr ⟨_, stage, moved, rfl, sameName, suits⟩
    · obtain ⟨inWaits, notIndex⟩ := List.mem_filter.mp isOld
      exact Or.inl ⟨fun same => by simp [same] at notIndex, inWaits⟩
  · intro other member
    refine Or.inl ⟨?_, member⟩
    intro same
    rw [← same] at member
    exact sound.not_mem_returned found notReturned member
  · exact sound.distinct

/-- A task that asks for a permit is neither invoked nor has it returned. -/
theorem request
    (sound : Sound scene)
    {index : Nat}
    {task : BatchTask}
    (found : scene.batch.tasks[index]? = some task)
    (queued : task.place = .queued) :
    Sound { scene with batch := scene.batch.request index } := by
  refine sound.of_spares ?_ (Batch.spares_request scene.batch index) ?_ ?_ sound.distinct
  · exact sound.inTree
  · intro other invocation wait member
    refine Or.inl ⟨?_, member⟩
    intro same
    rw [← same] at member
    exact sound.not_invoked found (by simp [queued]) invocation wait member
  · intro other member
    refine Or.inl ⟨?_, member⟩
    intro same
    rw [← same] at member
    exact sound.not_mem_returned found (by simp [queued]) member

theorem dispatch
    (sound : Sound scene) :
    Sound { scene with batch := scene.batch.dispatch scene.ended } := by
  refine ⟨sound.inTree, ?_, ?_, sound.distinct⟩
  · intro index invocation wait member
    obtain ⟨task, stage, found, running, sameName, suits⟩ :=
      sound.invoked index invocation wait member
    have served := TaskPlace.isServed_of_running running
    exact ⟨task, stage, Batch.dispatch_of_isServed found served _, running, sameName,
      suits⟩
  · intro index member
    obtain ⟨task, call, began, found, returned⟩ := sound.returned index member
    have served := TaskPlace.isServed_of_returned returned
    exact ⟨task, call, began, Batch.dispatch_of_isServed found served _, returned⟩

/-- The first task that has returned is collected. -/
theorem collect
    (sound : Sound scene)
    {index : Nat}
    {rest : List Nat}
    (first : scene.returned = index :: rest) :
    Sound { scene with batch := scene.batch.collect index, returned := rest } := by
  obtain ⟨task, call, began, found, returned⟩ :=
    sound.returned index (by simp [first])
  have distinct := sound.distinct
  rw [first] at distinct
  obtain ⟨notInRest, restDistinct⟩ := List.nodup_cons.mp distinct
  refine sound.of_spares ?_ (Batch.spares_collect found returned) ?_ ?_ restDistinct
  · exact sound.inTree
  · intro other invocation wait member
    refine Or.inl ⟨?_, member⟩
    intro same
    rw [← same] at member
    exact sound.not_invoked found (by simp [returned]) invocation wait member
  · intro other member
    refine Or.inl ⟨?_, by simp [first, member]⟩
    intro same
    rw [← same] at member
    exact notInRest member

/-- No more tasks have returned than there are. -/
theorem length_returned_le
    (sound : Sound scene) :
    scene.returned.length ≤ scene.batch.tasks.length := by
  have inside : scene.returned ⊆ List.range scene.batch.tasks.length := by
    intro index member
    obtain ⟨task, call, began, found, _⟩ := sound.returned index member
    rw [List.mem_range]
    exact (List.getElem?_eq_some_iff.mp found).1
  have shorter := (List.subperm_of_subset sound.distinct inside).length_le
  rw [List.length_range] at shorter
  exact shorter

end Sound

end Rehearsal.Scene

end Runbook
