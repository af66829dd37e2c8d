import Mathlib.Algebra.GroupWithZero.Nat
import Mathlib.Algebra.Order.BigOperators.Group.List
import Runbook.Batch.Basic

namespace Runbook

/-!
# Moving tasks between places

Every operation on a batch moves a few tasks to other places.  For each operation this
module says where every task is afterwards, what becomes of the permits and of the line,
and how a sum over the tasks changes.  Later proofs use these equations and never unfold
the operations.
-/

namespace TaskPlace

theorem isCollected_iff
    {place : TaskPlace} :
    place.isCollected = true ↔ ∃ call, place = .collected call := by
  cases place <;> simp [isCollected]

end TaskPlace

namespace Batch

/-! ### Moving one task -/

/-- Only the moved task is somewhere else. -/
theorem getElem?_move
    (batch : Batch)
    (index : Nat)
    (place : TaskPlace)
    (other : Nat) :
    (batch.move index place).tasks[other]? =
      if index = other then
        (batch.tasks[other]?).map fun task => { task with place := place }
      else batch.tasks[other]? := by
  simp only [move, List.getElem?_modify]
  split <;> simp

theorem getElem?_move_self
    {batch : Batch}
    {index : Nat}
    {task : BatchTask}
    (found : batch.tasks[index]? = some task)
    (place : TaskPlace) :
    (batch.move index place).tasks[index]? = some { task with place := place } := by
  simp [getElem?_move, found]

theorem getElem?_move_of_ne
    (batch : Batch)
    {index other : Nat}
    (different : index ≠ other)
    (place : TaskPlace) :
    (batch.move index place).tasks[other]? = batch.tasks[other]? := by
  simp [getElem?_move, different]

@[simp] theorem length_tasks_move
    (batch : Batch)
    (index : Nat)
    (place : TaskPlace) :
    (batch.move index place).tasks.length = batch.tasks.length := by
  simp [move]

@[simp] theorem line_move
    (batch : Batch)
    (index : Nat)
    (place : TaskPlace) :
    (batch.move index place).line = batch.line :=
  rfl

@[simp] theorem permits_move
    (batch : Batch)
    (index : Nat)
    (place : TaskPlace) :
    (batch.move index place).permits = batch.permits :=
  rfl

@[simp] theorem tally_move
    (batch : Batch)
    (index : Nat)
    (place : TaskPlace) :
    (batch.move index place).tally = batch.tally :=
  rfl

@[simp] theorem trippedBy_move
    (batch : Batch)
    (index : Nat)
    (place : TaskPlace) :
    (batch.move index place).trippedBy = batch.trippedBy :=
  rfl

@[simp] theorem order_move
    (batch : Batch)
    (index : Nat)
    (place : TaskPlace) :
    (batch.move index place).order = batch.order :=
  rfl

@[simp] theorem failFast_move
    (batch : Batch)
    (index : Nat)
    (place : TaskPlace) :
    (batch.move index place).failFast = batch.failFast :=
  rfl

/-! ### Sums over tasks -/

/-- The sum of the weights of all tasks. -/
def total (weight : BatchTask → Nat) (batch : Batch) : Nat :=
  (batch.tasks.map weight).sum

theorem sum_map_modify
    (weight : BatchTask → Nat)
    (change : BatchTask → BatchTask)
    {tasks : List BatchTask}
    {index : Nat}
    {task : BatchTask}
    (found : tasks[index]? = some task) :
    ((tasks.modify index change).map weight).sum + weight task =
      (tasks.map weight).sum + weight (change task) := by
  induction tasks generalizing index with
  | nil =>
      simp at found
  | cons head rest inductionHypothesis =>
      cases index with
      | zero =>
          have isHead : head = task := by
            simpa using found
          subst isHead
          simp only [List.modify_zero_cons, List.map_cons, List.sum_cons]
          omega
      | succ index =>
          have inRest : rest[index]? = some task := by
            simpa using found
          have shifted := inductionHypothesis inRest
          simp only [List.modify_succ_cons, List.map_cons, List.sum_cons]
          omega

/-- Moving a task exchanges its weight. -/
theorem total_move
    (weight : BatchTask → Nat)
    {batch : Batch}
    {index : Nat}
    {task : BatchTask}
    (found : batch.tasks[index]? = some task)
    (place : TaskPlace) :
    (batch.move index place).total weight + weight task =
      batch.total weight + weight { task with place := place } :=
  sum_map_modify weight _ found

theorem countP_tasks
    (batch : Batch)
    (chosen : BatchTask → Bool) :
    batch.tasks.countP chosen =
      batch.total fun task => if chosen task then 1 else 0 := by
  unfold total
  induction batch.tasks with
  | nil =>
      rfl
  | cons head rest inductionHypothesis =>
      rw [List.countP_cons, inductionHypothesis, List.map_cons, List.sum_cons,
        Nat.add_comm]

/-! ### Starting ready tasks -/

/-- A task is ready to start if it is held and all it awaits is collected. -/
theorem mem_readyTasks
    {batch : Batch}
    {index : Nat}
    {task : BatchTask}
    (found : batch.tasks[index]? = some task) :
    index ∈ batch.readyTasks ↔
      index ∈ batch.order ∧ task.place = .held ∧ batch.isReady task = true := by
  simp [readyTasks, found]

/-- Starting several tasks queues them and leaves the others where they are. -/
theorem getElem?_startAll
    (indices : List Nat)
    (batch : Batch)
    (other : Nat) :
    (indices.foldl (fun batch index => batch.move index .queued) batch).tasks[other]? =
      if other ∈ indices then
        (batch.tasks[other]?).map fun task => { task with place := .queued }
      else batch.tasks[other]? := by
  induction indices generalizing batch with
  | nil =>
      simp
  | cons index rest inductionHypothesis =>
      rw [List.foldl_cons, inductionHypothesis, getElem?_move]
      by_cases inRest : other ∈ rest
      · by_cases same : index = other
        · simp [inRest, same, Function.comp_def]
        · simp [inRest, same]
      · by_cases same : index = other
        · simp [inRest, same]
        · simp [inRest, same, Ne.symm same]

theorem startAll_frame
    (indices : List Nat)
    (batch : Batch) :
    let started := indices.foldl (fun batch index => batch.move index .queued) batch
    started.tasks.length = batch.tasks.length ∧ started.order = batch.order ∧
      started.failFast = batch.failFast ∧ started.permits = batch.permits ∧
      started.tally = batch.tally ∧ started.line = batch.line ∧
      started.trippedBy = batch.trippedBy := by
  induction indices generalizing batch with
  | nil =>
      simp
  | cons index rest inductionHypothesis =>
      simpa [move] using inductionHypothesis (batch.move index .queued)

/-- A dispatch changes nothing but places. -/
theorem dispatch_frame
    (batch : Batch)
    (ended : Option Fault) :
    (batch.dispatch ended).tasks.length = batch.tasks.length ∧
      (batch.dispatch ended).order = batch.order ∧
      (batch.dispatch ended).failFast = batch.failFast ∧
      (batch.dispatch ended).permits = batch.permits ∧
      (batch.dispatch ended).tally = batch.tally ∧
      (batch.dispatch ended).line = batch.line ∧
      (batch.dispatch ended).trippedBy = batch.trippedBy := by
  cases ended with
  | none =>
      exact startAll_frame batch.readyTasks batch
  | some fault =>
      simp [dispatch]

/-- A dispatch leaves a task where it is, or queues a held one that is ready. -/
theorem dispatch_task
    {batch : Batch}
    {index : Nat}
    {task : BatchTask}
    (found : batch.tasks[index]? = some task)
    (ended : Option Fault) :
    (batch.dispatch ended).tasks[index]? = some task ∨
      (task.place = .held ∧ batch.isReady task = true ∧ ended = none ∧
        (batch.dispatch ended).tasks[index]? =
          some { task with place := .queued }) := by
  cases ended with
  | some fault =>
      exact Or.inl found
  | none =>
      simp only [dispatch, getElem?_startAll, found]
      by_cases ready : index ∈ batch.readyTasks
      · obtain ⟨_, held, allCollected⟩ := (mem_readyTasks found).mp ready
        exact Or.inr ⟨held, allCollected, trivial, by simp [ready]⟩
      · exact Or.inl (by simp [ready])

/-- What does not tell a queued task from a held one is the same after a dispatch. -/
theorem map_tasks_dispatch
    {β : Type}
    (batch : Batch)
    (ended : Option Fault)
    (view : BatchTask → β)
    (blind : ∀ task : BatchTask, task.place = .held →
      view { task with place := .queued } = view task) :
    (batch.dispatch ended).tasks.map view = batch.tasks.map view := by
  apply List.ext_getElem?
  intro index
  rw [List.getElem?_map, List.getElem?_map]
  cases found : batch.tasks[index]? with
  | none =>
      have missing : (batch.dispatch ended).tasks[index]? = none := by
        rw [List.getElem?_eq_none_iff, (dispatch_frame batch ended).1]
        exact List.getElem?_eq_none_iff.mp found
      rw [missing]
  | some task =>
      rcases dispatch_task found ended with same | ⟨held, _, _, queued⟩
      · rw [same]
      · rw [queued]
        exact congrArg some (blind task held)

/-- Lighter tasks one by one weigh less together. -/
theorem sum_map_le_sum_map
    (weight : BatchTask → Nat)
    {before after : List BatchTask}
    (sameLength : after.length = before.length)
    (lighter : ∀ (index : Nat) (first second : BatchTask),
      before[index]? = some first →
      after[index]? = some second →
      weight second ≤ weight first) :
    (after.map weight).sum ≤ (before.map weight).sum := by
  induction before generalizing after with
  | nil =>
      have isEmpty : after = [] := List.length_eq_zero_iff.mp sameLength
      simp [isEmpty]
  | cons head rest inductionHypothesis =>
      cases after with
      | nil =>
          simp at sameLength
      | cons newHead newRest =>
          have headLighter := lighter 0 head newHead rfl rfl
          have restLighter :=
            inductionHypothesis (by simpa using sameLength)
              fun index first second inRest inNewRest =>
                lighter (index + 1) first second
                  (by simpa using inRest) (by simpa using inNewRest)
          simp only [List.map_cons, List.sum_cons]
          omega

/-- Starting tasks makes a batch lighter if a queued task weighs no more than a held one. -/
theorem total_dispatch_le
    (batch : Batch)
    (ended : Option Fault)
    (weight : BatchTask → Nat)
    (lighter : ∀ task : BatchTask, task.place = .held →
      weight { task with place := .queued } ≤ weight task) :
    (batch.dispatch ended).total weight ≤ batch.total weight := by
  refine sum_map_le_sum_map weight (dispatch_frame batch ended).1 ?_
  intro index first second before after
  rcases dispatch_task before ended with same | ⟨held, _, _, queued⟩
  · have unchanged : first = second :=
      Option.some.inj (same.symm.trans after)
    rw [unchanged]
  · have moved : { first with place := .queued } = second :=
      Option.some.inj (queued.symm.trans after)
    rw [← moved]
    exact lighter first held

/-! ### Permits and the line -/

theorem request_of_free
    {batch : Batch}
    (free : 0 < batch.permits)
    (index : Nat) :
    batch.request index =
      { batch with permits := batch.permits - 1 }.move index .granted := by
  simp [request, free]

theorem request_of_full
    {batch : Batch}
    (full : batch.permits = 0)
    (index : Nat) :
    batch.request index = { batch with line := batch.line ++ [index] } := by
  simp [request, full]

theorem release_of_empty
    {batch : Batch}
    (empty : batch.line = []) :
    batch.release = { batch with permits := batch.permits + 1 } := by
  simp [release, empty]

theorem release_of_cons
    {batch : Batch}
    {next : Nat}
    {rest : List Nat}
    (waiting : batch.line = next :: rest) :
    batch.release = { batch with line := rest }.move next .granted := by
  simp [release, waiting]

/-- Only the place of the first of the line depends on a release. -/
theorem release_frame
    (batch : Batch) :
    batch.release.tasks.length = batch.tasks.length ∧
      batch.release.order = batch.order ∧
      batch.release.failFast = batch.failFast ∧
      batch.release.tally = batch.tally ∧
      batch.release.trippedBy = batch.trippedBy := by
  cases waiting : batch.line with
  | nil =>
      simp [release_of_empty waiting]
  | cons next rest =>
      simp [release_of_cons waiting, move]

/-- Asking for a permit changes nothing but the place of the task, permits and line. -/
theorem request_frame
    (batch : Batch)
    (index : Nat) :
    (batch.request index).tasks.length = batch.tasks.length ∧
      (batch.request index).order = batch.order ∧
      (batch.request index).failFast = batch.failFast ∧
      (batch.request index).tally = batch.tally ∧
      (batch.request index).trippedBy = batch.trippedBy := by
  by_cases free : 0 < batch.permits
  · simp [request_of_free free]
  · simp [request_of_full (Nat.eq_zero_of_not_pos free)]

/-- A task that waits for its permit leaves the line when it gives up. -/
theorem giveUp_of_queued
    {batch : Batch}
    {index : Nat}
    {task : BatchTask}
    (found : batch.tasks[index]? = some task)
    (queued : task.place = .queued)
    (fault : Fault) :
    batch.giveUp index fault =
      { batch with line := batch.line.filter (· != index) }.move index
        (.returned (task.call.settle (.error fault)) false) := by
  simp [giveUp, found, queued]

/-- A task that was granted its permit passes it on when it gives up. -/
theorem giveUp_of_granted
    {batch : Batch}
    {index : Nat}
    {task : BatchTask}
    (found : batch.tasks[index]? = some task)
    (granted : task.place = .granted)
    (fault : Fault) :
    batch.giveUp index fault =
      (batch.move index
        (.returned (task.call.settle (.error fault)) false)).release := by
  simp [giveUp, found, granted]

/-- Giving up changes nothing but places, permits and line. -/
theorem giveUp_frame
    {batch : Batch}
    {index : Nat}
    {task : BatchTask}
    (found : batch.tasks[index]? = some task)
    (waits : task.place = .queued ∨ task.place = .granted)
    (fault : Fault) :
    (batch.giveUp index fault).tasks.length = batch.tasks.length ∧
      (batch.giveUp index fault).order = batch.order ∧
      (batch.giveUp index fault).failFast = batch.failFast ∧
      (batch.giveUp index fault).tally = batch.tally ∧
      (batch.giveUp index fault).trippedBy = batch.trippedBy := by
  rcases waits with queued | granted
  · simp [giveUp_of_queued found queued]
  · rw [giveUp_of_granted found granted]
    simpa using release_frame
      (batch.move index (.returned (task.call.settle (.error fault)) false))

/-! ### The end of a task -/

/-- A task that is finished has its call settled and passes its permit on. -/
theorem finish_of_getElem?
    {batch : Batch}
    {index : Nat}
    {task : BatchTask}
    (found : batch.tasks[index]? = some task)
    (ending : Ending String)
    (ended : Option Fault) :
    let call := task.call.settle (ending.resultOr (breakdown task.call.name))
    batch.finish index ending ended =
      (batch.trips call ended,
        ({ batch with
            trippedBy :=
              if batch.trips call ended then some call.id else batch.trippedBy
          }.move index (.returned call true)).release) := by
  simp only [finish, found]
  split <;> simp_all [move]

/-- A task that has returned is stored, and one call less of its id is not over. -/
theorem collect_of_returned
    {batch : Batch}
    {index : Nat}
    {task : BatchTask}
    {call : Call}
    {began : Bool}
    (found : batch.tasks[index]? = some task)
    (returned : task.place = .returned call began) :
    batch.collect index =
      { batch with tally := batch.tally.lower call.id }.move index
        (.collected (keep batch.trippedBy task.call call began)) := by
  simp [collect, found, returned]

/-- Storing a call changes nothing but the place of its task and the tally. -/
theorem collect_frame
    {batch : Batch}
    {index : Nat}
    {task : BatchTask}
    {call : Call}
    {began : Bool}
    (found : batch.tasks[index]? = some task)
    (returned : task.place = .returned call began) :
    (batch.collect index).tasks.length = batch.tasks.length ∧
      (batch.collect index).order = batch.order ∧
      (batch.collect index).failFast = batch.failFast ∧
      (batch.collect index).trippedBy = batch.trippedBy := by
  simp [collect_of_returned found returned]

end Batch

end Runbook
