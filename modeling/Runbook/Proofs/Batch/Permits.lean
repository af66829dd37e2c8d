import Runbook.Proofs.Batch.Course
import Runbook.Proofs.Batch.Places

namespace Runbook

/-!
# Permits

A permit is free or one task has it, whatever happens: free permits and tasks with a
permit always add up to the limit of the batch.  The line holds tasks that wait, each
once, and nobody waits while a permit is free.
-/

namespace TaskPlace

/-- Whether a task at this place has a permit. -/
def holdsPermit : TaskPlace → Bool
  | granted => true
  | running _ => true
  | _ => false

end TaskPlace

namespace Batch

/-- Every permit of the batch is free or held, and the line is in order. -/
structure Permitted (limit : Nat) (batch : Batch) : Prop where
  balance :
    batch.permits + batch.tasks.countP (·.place.holdsPermit) = limit
  lineNodup :
    batch.line.Nodup
  lineQueued :
    ∀ index ∈ batch.line,
      ∃ task, batch.tasks[index]? = some task ∧ task.place = .queued
  noneFree :
    batch.line ≠ [] → batch.permits = 0

/-- One for a task with a permit. -/
private def permitWeight (task : BatchTask) : Nat :=
  if task.place.holdsPermit then 1 else 0

private theorem countP_holdsPermit
    (batch : Batch) :
    batch.tasks.countP (·.place.holdsPermit) = batch.total permitWeight :=
  countP_tasks batch _

namespace Permitted

variable {limit : Nat} {batch : Batch}

/-- A task that does not wait is not in the line. -/
theorem not_mem_line
    (permitted : batch.Permitted limit)
    {index : Nat}
    {task : BatchTask}
    (found : batch.tasks[index]? = some task)
    (notQueued : task.place ≠ .queued) :
    index ∉ batch.line := by
  intro member
  obtain ⟨waiting, waitingFound, queued⟩ := permitted.lineQueued index member
  have same : task = waiting :=
    Option.some.inj (found.symm.trans waitingFound)
  rw [same] at notQueued
  exact notQueued queued

/-- The tasks of the line still wait when another task is moved. -/
theorem lineQueued_move
    (permitted : batch.Permitted limit)
    {index : Nat}
    (outside : index ∉ batch.line)
    (place : TaskPlace) :
    ∀ other ∈ (batch.move index place).line,
      ∃ task, (batch.move index place).tasks[other]? = some task ∧
        task.place = .queued := by
  intro other inLine
  have different : index ≠ other := by
    intro same
    rw [same] at outside
    exact outside inLine
  rw [getElem?_move_of_ne batch different]
  exact permitted.lineQueued other inLine

/-- It does not matter to permits which call trips the batch. -/
theorem mark
    (permitted : batch.Permitted limit)
    (trippedBy : Option String) :
    ({ batch with trippedBy := trippedBy } : Batch).Permitted limit :=
  ⟨permitted.balance, permitted.lineNodup, permitted.lineQueued, permitted.noneFree⟩

theorem dispatch
    (permitted : batch.Permitted limit)
    (ended : Option Fault) :
    (batch.dispatch ended).Permitted limit := by
  obtain ⟨_, _, _, samePermits, _, sameLine, _⟩ := dispatch_frame batch ended
  have sameHolders :
      (batch.dispatch ended).tasks.countP (·.place.holdsPermit) =
        batch.tasks.countP (·.place.holdsPermit) := by
    rw [countP_holdsPermit, countP_holdsPermit]
    exact congrArg List.sum
      (map_tasks_dispatch batch ended permitWeight fun task held => by
        simp [permitWeight, held, TaskPlace.holdsPermit])
  refine ⟨?_, ?_, ?_, ?_⟩
  · rw [samePermits, sameHolders]
    exact permitted.balance
  · rw [sameLine]
    exact permitted.lineNodup
  · rw [sameLine]
    intro index member
    obtain ⟨task, found, queued⟩ := permitted.lineQueued index member
    rcases dispatch_task found ended with same | ⟨held, _, _, _⟩
    · exact ⟨task, same, queued⟩
    · rw [queued] at held
      cases held
  · rw [sameLine, samePermits]
    exact permitted.noneFree

/-- A task that keeps its permit, or keeps having none, may move unless it is in the line. -/
theorem move
    (permitted : batch.Permitted limit)
    {index : Nat}
    {task : BatchTask}
    (found : batch.tasks[index]? = some task)
    (outside : index ∉ batch.line)
    {place : TaskPlace}
    (same : place.holdsPermit = task.place.holdsPermit) :
    (batch.move index place).Permitted limit := by
  have exchanged := total_move permitWeight found place
  have sameWeight :
      permitWeight { task with place := place } = permitWeight task := by
    simp [permitWeight, same]
  refine ⟨?_, permitted.lineNodup, ?_, permitted.noneFree⟩
  · have balance := permitted.balance
    rw [countP_holdsPermit] at balance ⊢
    rw [permits_move]
    omega
  · exact permitted.lineQueued_move outside place

/-- A task that asks for a permit gets a free one or joins the line. -/
theorem request
    (permitted : batch.Permitted limit)
    {index : Nat}
    {task : BatchTask}
    (found : batch.tasks[index]? = some task)
    (queued : task.place = .queued)
    (outside : index ∉ batch.line) :
    (batch.request index).Permitted limit := by
  by_cases free : 0 < batch.permits
  · have emptyLine : batch.line = [] := by
      by_contra waiting
      have full := permitted.noneFree waiting
      omega
    have exchanged := total_move permitWeight found .granted
    have balance := permitted.balance
    rw [countP_holdsPermit] at balance
    have weightBefore : permitWeight task = 0 := by
      simp [permitWeight, queued, TaskPlace.holdsPermit]
    have weightAfter : permitWeight { task with place := .granted } = 1 := by
      simp [permitWeight, TaskPlace.holdsPermit]
    rw [request_of_free free]
    refine ⟨?_, ?_, ?_, ?_⟩
    · rw [countP_holdsPermit, permits_move]
      have sameTotal :
          ({ batch with permits := batch.permits - 1 }.move index .granted).total
              permitWeight =
            (batch.move index .granted).total permitWeight :=
        rfl
      rw [sameTotal]
      change batch.permits - 1 + _ = limit
      omega
    · simp [emptyLine]
    · simp [emptyLine]
    · simp [emptyLine]
  · have full : batch.permits = 0 := by
      omega
    rw [request_of_full full]
    refine ⟨permitted.balance, ?_, ?_, fun _ => full⟩
    · exact List.nodup_append.mpr
        ⟨permitted.lineNodup, List.pairwise_singleton _ _, by
          intro other member last isLast same
          rw [List.mem_singleton] at isLast
          rw [same, isLast] at member
          exact outside member⟩
    · intro other member
      rcases List.mem_append.mp member with inLine | isLast
      · exact permitted.lineQueued other inLine
      · rw [List.mem_singleton] at isLast
        rw [isLast]
        exact ⟨task, found, queued⟩

/-- A task that gives up waiting leaves the line, and no permit changes hands. -/
theorem giveUp_of_queued
    (permitted : batch.Permitted limit)
    {index : Nat}
    {task : BatchTask}
    (found : batch.tasks[index]? = some task)
    (queued : task.place = .queued)
    (fault : Fault) :
    (batch.giveUp index fault).Permitted limit := by
  have shorter :
      ({ batch with line := batch.line.filter (· != index) } : Batch).Permitted limit := by
    refine ⟨permitted.balance, permitted.lineNodup.filter _, ?_, ?_⟩
    · intro other member
      exact permitted.lineQueued other (List.mem_filter.mp member).1
    · intro waiting
      apply permitted.noneFree
      intro empty
      apply waiting
      simp [empty]
  rw [Batch.giveUp_of_queued found queued]
  refine shorter.move found ?_ ?_
  · simp
  · simp [queued, TaskPlace.holdsPermit]

/-- A task that returns with a permit passes it on. -/
theorem passOn
    (permitted : batch.Permitted limit)
    {index : Nat}
    {task : BatchTask}
    (found : batch.tasks[index]? = some task)
    (holds : task.place.holdsPermit = true)
    {place : TaskPlace}
    (gone : place.holdsPermit = false) :
    ((batch.move index place).release).Permitted limit := by
  have exchanged := total_move permitWeight found place
  have balance := permitted.balance
  rw [countP_holdsPermit] at balance
  have weightBefore : permitWeight task = 1 := by
    simp [permitWeight, holds]
  have weightAfter : permitWeight { task with place := place } = 0 := by
    simp [permitWeight, gone]
  cases waiting : batch.line with
  | nil =>
      rw [release_of_empty (show (batch.move index place).line = [] from waiting)]
      refine ⟨?_, ?_, ?_, ?_⟩
      · rw [countP_holdsPermit]
        have sameTotal :
            Batch.total permitWeight
                { batch.move index place with
                  permits := (batch.move index place).permits + 1 } =
              (batch.move index place).total permitWeight :=
          rfl
        rw [sameTotal]
        change batch.permits + 1 + _ = limit
        omega
      · simp [waiting]
      · simp [waiting]
      · simp [waiting]
  | cons next rest =>
      obtain ⟨nextTask, nextFound, nextQueued⟩ :=
        permitted.lineQueued next (by simp [waiting])
      -- The permit is free at no time: one holder leaves, the first of the line becomes one.
      have full : batch.permits = 0 :=
        permitted.noneFree (by simp [waiting])
      have different : index ≠ next := by
        intro same
        rw [same] at found
        have sameTask : task = nextTask :=
          Option.some.inj (found.symm.trans nextFound)
        rw [sameTask, nextQueued] at holds
        cases holds
      have lineParts := permitted.lineNodup
      rw [waiting] at lineParts
      obtain ⟨nextNotInRest, restNodup⟩ := List.nodup_cons.mp lineParts
      have nextMoved :
          (batch.move index place).tasks[next]? = some nextTask := by
        rw [getElem?_move_of_ne batch different]
        exact nextFound
      have exchangedNext := total_move permitWeight nextMoved .granted
      have nextBefore : permitWeight nextTask = 0 := by
        simp [permitWeight, nextQueued, TaskPlace.holdsPermit]
      have nextAfter : permitWeight { nextTask with place := .granted } = 1 := by
        simp [permitWeight, TaskPlace.holdsPermit]
      rw [release_of_cons (show (batch.move index place).line = next :: rest from waiting)]
      refine ⟨?_, restNodup, ?_, fun _ => full⟩
      · rw [countP_holdsPermit]
        have sameTotal :
            Batch.total permitWeight
                ({ batch.move index place with line := rest }.move next .granted) =
              ((batch.move index place).move next .granted).total permitWeight :=
          rfl
        rw [sameTotal]
        change batch.permits + _ = limit
        omega
      · intro other member
        have notNext : next ≠ other := by
          intro same
          rw [same] at nextNotInRest
          exact nextNotInRest member
        obtain ⟨otherTask, otherFound, otherQueued⟩ :=
          permitted.lineQueued other (by
            rw [waiting]
            exact List.mem_cons_of_mem _ member)
        have notIndex : index ≠ other := by
          intro same
          rw [same] at found
          have sameTask : task = otherTask :=
            Option.some.inj (found.symm.trans otherFound)
          rw [sameTask, otherQueued] at holds
          cases holds
        refine ⟨otherTask, ?_, otherQueued⟩
        rw [getElem?_move_of_ne _ notNext]
        exact (getElem?_move_of_ne batch notIndex place).trans otherFound

theorem start
    (calls : List Call)
    (schedule : Schedule)
    (limit : Nat)
    (failFast : Bool) :
    (Batch.start calls schedule limit failFast).Permitted limit := by
  have allHeld :
      (Batch.start calls schedule limit failFast).tasks.countP
        (·.place.holdsPermit) = 0 := by
    rw [List.countP_eq_zero]
    intro task member
    obtain ⟨entry, _, isTask⟩ := List.mem_map.mp member
    rw [← isTask]
    simp [TaskPlace.holdsPermit]
  refine ⟨?_, List.nodup_nil, ?_, ?_⟩
  · rw [allHeld]
    rfl
  · intro index member
    cases member
  · intro waiting
    exact (waiting rfl).elim

end Permitted

end Batch

namespace Course

variable {policy : RetryPolicy} {limit : Nat} {course next : Course}

/-- A task that finishes is marked if it trips the batch, moves, and passes its permit on. -/
theorem batch_finish
    {index : Nat}
    {task : BatchTask}
    (found : course.batch.tasks[index]? = some task)
    (ending : Ending String) :
    (course.finish index task ending).batch =
      ({ course.batch with
          trippedBy :=
            if course.batch.trips (settled task ending) course.ended then
              some (settled task ending).id
            else course.batch.trippedBy
        }.move index (.returned (settled task ending) true)).release := by
  simp only [finish, Batch.finish_of_getElem? found]
  rfl

theorem ended_finish
    {index : Nat}
    {task : BatchTask}
    (found : course.batch.tasks[index]? = some task)
    (ending : Ending String) :
    (course.finish index task ending).ended =
      if course.batch.trips (settled task ending) course.ended then some .cancelled
      else course.ended := by
  simp only [finish, Batch.finish_of_getElem? found]
  rfl

/-- A task that finishes says so, and says next that it trips the batch if it does. -/
theorem history_finish
    {index : Nat}
    {task : BatchTask}
    (found : course.batch.tasks[index]? = some task)
    (ending : Ending String) :
    (course.finish index task ending).history =
      course.history ++ .finished index (settled task ending) ::
        if course.batch.trips (settled task ending) course.ended then [.tripped index]
        else [] := by
  simp only [finish, Batch.finish_of_getElem? found]
  rfl

/-- No step of a batch loses a permit or makes one. -/
theorem permitted_of_step
    (step : Step policy course next)
    (permitted : course.batch.Permitted limit) :
    next.batch.Permitted limit := by
  cases step with
  | look =>
      exact permitted.dispatch course.ended
  | @collect index task call began found returned =>
      have stored : (course.batch.collect index).Permitted limit := by
        rw [Batch.collect_of_returned found returned]
        have outside : index ∉ course.batch.line :=
          permitted.not_mem_line found (by simp [returned])
        have lowered :
            ({ course.batch with
                tally := course.batch.tally.lower call.id } : Batch).Permitted limit :=
          ⟨permitted.balance, permitted.lineNodup,
            permitted.lineQueued, permitted.noneFree⟩
        exact lowered.move found outside
          (by simp [returned, TaskPlace.holdsPermit])
      exact stored.dispatch course.ended
  | request found queued _ outside =>
      exact permitted.request found queued outside
  | @giveUp index task fault found waits _ =>
      rcases waits with queued | granted
      · exact permitted.giveUp_of_queued found queued fault
      · change (course.batch.giveUp index fault).Permitted limit
        rw [Batch.giveUp_of_granted found granted]
        exact permitted.passOn found
          (by simp [granted, TaskPlace.holdsPermit]) rfl
  | begin found granted _ _ =>
      exact permitted.move found
        (permitted.not_mem_line found (by simp [granted]))
        (by simp [granted, TaskPlace.holdsPermit])
  | proceed found running _ =>
      exact permitted.move found
        (permitted.not_mem_line found (by simp [running]))
        (by simp [running, TaskPlace.holdsPermit])
  | @finish index task ending found running =>
      rw [batch_finish found]
      apply Batch.Permitted.passOn (permitted.mark _)
      · exact found
      · simp [running, TaskPlace.holdsPermit]
      · rfl

/-- Nothing that happens loses a permit or makes one. -/
theorem permitted_of_moves
    (moves : Moves policy course next)
    (permitted : course.batch.Permitted limit) :
    next.batch.Permitted limit := by
  cases moves with
  | step step =>
      exact permitted_of_step step permitted
  | outside _ =>
      exact permitted

end Course

end Runbook
