import Runbook.Proofs.Batch.Tally
import Runbook.Proofs.Batch.Traces

namespace Runbook

/-!
# Calls start when their dependencies are over

The tally always counts the calls that are not collected, id by id.  A task leaves its
place in the hold only when the tally is down to zero for every id that it awaits, so by
then every call of the batch with such an id has finished and is stored.
-/

namespace Batch

variable {limit : Nat} {batch : Batch}

/-- One for a task that carries out a call of this id and is not collected. -/
def uncollected (id : String) (task : BatchTask) : Nat :=
  if task.call.id = id ∧ task.place.isCollected = false then 1 else 0

/-- The tally counts the calls that are not collected. -/
def Counted (batch : Batch) : Prop :=
  ∀ id, batch.tally.count id = batch.total (uncollected id)

private theorem uncollected_congr
    (id : String)
    {task : BatchTask}
    {place : TaskPlace}
    (same : place.isCollected = task.place.isCollected) :
    uncollected id { task with place := place } = uncollected id task := by
  simp [uncollected, same]

namespace Counted

theorem move
    (counted : batch.Counted)
    {index : Nat}
    {task : BatchTask}
    (found : batch.tasks[index]? = some task)
    {place : TaskPlace}
    (same : place.isCollected = task.place.isCollected) :
    (batch.move index place).Counted := by
  intro id
  have exchanged := total_move (uncollected id) found place
  rw [uncollected_congr id same] at exchanged
  have before := counted id
  rw [tally_move]
  omega

theorem dispatch
    (counted : batch.Counted)
    (ended : Option Fault) :
    (batch.dispatch ended).Counted := by
  intro id
  have sameTally : (batch.dispatch ended).tally = batch.tally :=
    (dispatch_frame batch ended).2.2.2.2.1
  have sameTotal :
      (batch.dispatch ended).total (uncollected id) = batch.total (uncollected id) :=
    congrArg List.sum
      (map_tasks_dispatch batch ended (uncollected id) fun task held =>
        uncollected_congr id (by simp [held, TaskPlace.isCollected]))
  rw [sameTally, sameTotal]
  exact counted id

/-- Returning with a permit and passing it on leaves the count. -/
theorem passOn
    (counted : batch.Counted)
    (permitted : batch.Permitted limit)
    {index : Nat}
    {task : BatchTask}
    (found : batch.tasks[index]? = some task)
    (notQueued : task.place ≠ .queued)
    {place : TaskPlace}
    (same : place.isCollected = task.place.isCollected) :
    ((batch.move index place).release).Counted := by
  have moved := counted.move found same
  have stillWaits :=
    permitted.lineQueued_move (permitted.not_mem_line found notQueued) place
  cases waiting : batch.line with
  | nil =>
      rw [release_of_empty (show (batch.move index place).line = [] from waiting)]
      exact moved
  | cons next rest =>
      obtain ⟨nextTask, nextFound, queued⟩ := stillWaits next (by simp [waiting])
      rw [release_of_cons (show (batch.move index place).line = next :: rest from waiting)]
      have shorter : ({ batch.move index place with line := rest } : Batch).Counted :=
        moved
      exact shorter.move nextFound (by simp [queued, TaskPlace.isCollected])

/-- Storing a call lowers the count of its id. -/
theorem collect
    (counted : batch.Counted)
    {index : Nat}
    {task : BatchTask}
    {call : Call}
    {began : Bool}
    (found : batch.tasks[index]? = some task)
    (returned : task.place = .returned call began)
    (sameId : call.id = task.call.id) :
    (batch.collect index).Counted := by
  rw [collect_of_returned found returned]
  intro id
  have exchanged :=
    total_move (uncollected id) found
      (.collected (keep batch.trippedBy task.call call began))
  have sameTotal :
      ({ batch with tally := batch.tally.lower call.id }.move index
          (.collected (keep batch.trippedBy task.call call began))).total
            (uncollected id) =
        (batch.move index
          (.collected (keep batch.trippedBy task.call call began))).total
            (uncollected id) :=
    rfl
  have weightAfter :
      uncollected id { task with
        place := .collected (keep batch.trippedBy task.call call began) } = 0 := by
    simp [uncollected, TaskPlace.isCollected]
  have weightBefore :
      uncollected id task = if task.call.id = id then 1 else 0 := by
    simp [uncollected, returned, TaskPlace.isCollected]
  have before := counted id
  rw [tally_move, sameTotal]
  change (batch.tally.lower call.id).count id = _
  rw [Tally.count_lower, sameId]
  omega

theorem start
    {calls : List Call}
    {schedule : Schedule}
    (sameLength : schedule.awaited.length = calls.length)
    (limit : Nat)
    (failFast : Bool) :
    (Batch.start calls schedule limit failFast).Counted := by
  intro id
  have ones :
      (Batch.start calls schedule limit failFast).total (uncollected id) =
        (calls.map fun call => if call.id = id then 1 else 0).sum := by
    have firsts : (calls.zip schedule.awaited).map Prod.fst = calls :=
      List.map_fst_zip (Nat.le_of_eq sameLength.symm)
    calc
      (Batch.start calls schedule limit failFast).total (uncollected id) =
          (((calls.zip schedule.awaited).map Prod.fst).map
            fun call => if call.id = id then 1 else 0).sum := by
        simp [total, Batch.start, uncollected, TaskPlace.isCollected,
          Function.comp_def]
      _ = _ := by
        rw [firsts]
  have counts :
      ∀ calls : List Call,
        (calls.map (·.id)).count id =
          (calls.map fun call => if call.id = id then 1 else 0).sum := by
    intro calls
    induction calls with
    | nil =>
        rfl
    | cons call rest inductionHypothesis =>
        simp only [List.map_cons, List.count_cons, List.sum_cons, beq_iff_eq,
          inductionHypothesis]
        omega
  rw [ones, ← counts]
  exact Tally.count_ofIds _ id

/-- When the tally is down to zero for an id, every call of this id is collected. -/
theorem isCollected_of_count_eq_zero
    (counted : batch.Counted)
    {id : String}
    (none : batch.tally.count id = 0)
    {task : BatchTask}
    (member : task ∈ batch.tasks)
    (sameId : task.call.id = id) :
    task.place.isCollected = true := by
  by_contra notCollected
  have weighs : uncollected id task = 1 := by
    simp [uncollected, sameId, notCollected]
  have included : uncollected id task ≤ batch.total (uncollected id) :=
    List.le_sum_of_mem (List.mem_map_of_mem member)
  rw [← counted id, none] at included
  omega

/-- While the tally is not down to zero for an id, a call of this id is not collected. -/
theorem exists_of_count_ne_zero
    (counted : batch.Counted)
    {id : String}
    (some : batch.tally.count id ≠ 0) :
    ∃ task ∈ batch.tasks, task.call.id = id ∧ task.place.isCollected = false := by
  by_contra allCollected
  apply some
  rw [counted id]
  apply List.sum_eq_zero
  intro weight member
  obtain ⟨task, inTasks, isWeight⟩ := List.mem_map.mp member
  rw [← isWeight, uncollected, if_neg]
  intro waits
  exact allCollected ⟨task, inTasks, waits⟩

end Counted

/-- After a dispatch in a context that goes on, a task in the hold is not ready. -/
theorem not_isReady_of_held_dispatch
    {index : Nat}
    {task : BatchTask}
    (inTurn : index ∈ batch.order)
    (found : (batch.dispatch none).tasks[index]? = some task)
    (held : task.place = .held) :
    batch.isReady task = false := by
  have inside : index < batch.tasks.length := by
    rw [← (dispatch_frame batch none).1]
    exact (List.getElem?_eq_some_iff.mp found).1
  have before := List.getElem?_eq_getElem inside
  rcases dispatch_task before none with same | ⟨_, _, _, queued⟩
  · have sameTask : batch.tasks[index] = task :=
      Option.some.inj (same.symm.trans found)
    by_contra ready
    have isReady : index ∈ batch.readyTasks := by
      rw [mem_readyTasks before, sameTask]
      exact ⟨inTurn, held, by simpa using ready⟩
    have queued : (batch.dispatch none).tasks[index]? =
        some { batch.tasks[index] with place := .queued } := by
      simp only [dispatch, getElem?_startAll, isReady, before]
      rfl
    have isQueued := Option.some.inj (queued.symm.trans found)
    rw [← isQueued] at held
    cases held
  · have isQueued := Option.some.inj (queued.symm.trans found)
    rw [← isQueued] at held
    cases held

end Batch

namespace Course

variable {policy : RetryPolicy} {limit : Nat} {course next : Course}

/-- Whatever happens, the tally counts the calls that are not collected. -/
theorem counted_of_moves
    (moves : Moves policy course next)
    (permitted : course.batch.Permitted limit)
    (traced : course.Traced)
    (counted : course.batch.Counted) :
    next.batch.Counted := by
  cases moves with
  | outside _ =>
      exact counted
  | step step =>
      cases step with
      | look _ =>
          exact counted.dispatch course.ended
      | @collect index task call began found returned =>
          have form := traced.form index task found
          rw [returned] at form
          obtain ⟨outcome, isSettled⟩ := form.settles_returned
          have stored : (course.batch.collect index).Counted :=
            counted.collect found returned (by rw [isSettled, Call.id_settle])
          exact stored.dispatch course.ended
      | @request index task found queued goesOn outside =>
          by_cases free : 0 < course.batch.permits
          · simp only [request, Batch.request_of_free free]
            have fewer :
                ({ course.batch with
                    permits := course.batch.permits - 1 } : Batch).Counted :=
              counted
            exact fewer.move found (by simp [queued, TaskPlace.isCollected])
          · simp only [request, Batch.request_of_full (Nat.eq_zero_of_not_pos free)]
            exact counted
      | @giveUp index task fault found waits ended =>
          rcases waits with queued | granted
          · simp only [giveUp, Batch.giveUp_of_queued found queued]
            have shorter :
                ({ course.batch with
                    line := course.batch.line.filter (· != index) } : Batch).Counted :=
              counted
            exact shorter.move found (by simp [queued, TaskPlace.isCollected])
          · simp only [giveUp, Batch.giveUp_of_granted found granted]
            exact counted.passOn permitted found (by simp [granted])
              (by simp [granted, TaskPlace.isCollected])
      | begin found granted _ _ =>
          exact counted.move found (by simp [granted, TaskPlace.isCollected])
      | proceed found running _ =>
          exact counted.move found (by simp [running, TaskPlace.isCollected])
      | @finish index task ending found running =>
          rw [batch_finish found]
          have marked (trippedBy : Option String) :
              ({ course.batch with trippedBy := trippedBy } : Batch).Counted :=
            counted
          apply Batch.Counted.passOn (marked _) (permitted.mark _)
          · exact found
          · simp [running]
          · simp [running, TaskPlace.isCollected]

/-- A task that has left the hold has every call with an id that it awaits finished and
stored. -/
def Cleared (course : Course) : Prop :=
  ∀ (index other : Nat) (task required : BatchTask),
    course.batch.tasks[index]? = some task →
    course.batch.tasks[other]? = some required →
    task.place ≠ .held →
    required.call.id ∈ task.awaited →
    ∃ result,
      required.place = .collected result ∧ .finished other result ∈ course.history

/-- Whatever happens, tasks leave the hold only when what they await is over. -/
theorem cleared_of_moves
    (moves : Moves policy course next)
    (permitted : course.batch.Permitted limit)
    (traced : next.Traced)
    (counted : next.batch.Counted)
    (cleared : course.Cleared) :
    next.Cleared := by
  intro index other later laterRequired laterFound laterRequiredFound notHeld awaits
  obtain ⟨task, own, found, _, sameAwaited, taskMoves, _⟩ :=
    origin_of_moves moves permitted laterFound
  obtain ⟨required, requiredOwn, requiredFound, sameCall, _, requiredMoves, _⟩ :=
    origin_of_moves moves permitted laterRequiredFound
  by_cases held : task.place = .held
  · -- The task has just been started, so the tally is at zero for what it awaits.
    obtain ⟨_, isHeld | ⟨_, goesOn, ready⟩⟩ := taskMoves.of_held held
    · exact (notHeld isHeld).elim
    have none : next.batch.tally.count laterRequired.call.id = 0 := by
      rw [sameAwaited] at awaits
      have allNone := List.all_eq_true.mp ready laterRequired.call.id awaits
      simpa using allNone
    obtain ⟨result, stored⟩ :=
      TaskPlace.isCollected_iff.mp
        (counted.isCollected_of_count_eq_zero none
          (List.mem_of_getElem? laterRequiredFound) rfl)
    have form := traced.form other laterRequired laterRequiredFound
    rw [stored] at form
    refine ⟨result, stored, ?_⟩
    rcases form.finished_or_gaveUp with hasFinished | hasGivenUp
    · exact (BatchEvent.mem_ofTask rfl next.history).mp hasFinished
    · have member := (BatchEvent.mem_ofTask rfl next.history).mp hasGivenUp
      exact (traced.gaveUpLate other member goesOn).elim
  · rw [sameAwaited, sameCall] at awaits
    obtain ⟨result, stored, hasFinished⟩ :=
      cleared index other task required found requiredFound held awaits
    obtain ⟨new, grown⟩ := history_of_moves moves
    exact ⟨result, (requiredMoves.of_collected stored).2, by simp [grown, hasFinished]⟩

/-- Nothing happens to a call before every call that it awaits has finished and is
stored. -/
def Heralded (course : Course) : Prop :=
  ∀ (index other : Nat) (task required : BatchTask),
    course.batch.tasks[index]? = some task →
    course.batch.tasks[other]? = some required →
    required.call.id ∈ task.awaited →
    ∀ event : BatchEvent, event.task? = some index →
      event.Whenever
        (fun earlier =>
          .collected other ∈ earlier ∧ ∃ result, .finished other result ∈ earlier)
        course.history

/-- Whatever happens, it happens to a call after what it awaits is over. -/
theorem heralded_of_moves
    (moves : Moves policy course next)
    (permitted : course.batch.Permitted limit)
    (traced : course.Traced)
    (cleared : course.Cleared)
    (heralded : course.Heralded) :
    next.Heralded := by
  intro index other later laterRequired laterFound laterRequiredFound awaits
    event isAbout
  obtain ⟨task, own, found, _, sameAwaited, taskMoves, part⟩ :=
    origin_of_moves moves permitted laterFound
  obtain ⟨required, _, requiredFound, sameCall, _, _, _⟩ :=
    origin_of_moves moves permitted laterRequiredFound
  rw [sameAwaited, sameCall] at awaits
  obtain ⟨new, grown⟩ := history_of_moves moves
  have newPart : BatchEvent.ofTask index new = own := by
    rw [grown, BatchEvent.ofTask_append] at part
    exact List.append_cancel_left part
  rw [grown]
  refine (heralded index other task required found requiredFound awaits
    event isAbout).append ?_
  intro earlier rest isSplit
  have inOwn : event ∈ own := by
    rw [← newPart, BatchEvent.mem_ofTask isAbout, isSplit]
    simp
  have notHeld : task.place ≠ .held := by
    intro held
    rw [(taskMoves.of_held held).1] at inOwn
    cases inOwn
  obtain ⟨result, stored, hasFinished⟩ :=
    cleared index other task required found requiredFound notHeld awaits
  have form := traced.form other required requiredFound
  rw [stored] at form
  have hasBeenStored :=
    (BatchEvent.mem_ofTask rfl course.history).mp form.mem_collected
  exact ⟨List.mem_append_left _ hasBeenStored,
    result, List.mem_append_left _ hasFinished⟩

/-- A move of the collector ends with a dispatch; any other leaves the tally alone. -/
private theorem dispatches_or_keeps_tally
    (moves : Moves policy course next) :
    (∃ batch : Batch,
      next.batch = batch.dispatch next.ended ∧ batch.order = course.batch.order) ∨
      (next.batch.tally = course.batch.tally ∧ next.opened = course.opened) := by
  cases moves with
  | outside _ =>
      exact Or.inr ⟨rfl, rfl⟩
  | step step =>
      cases step with
      | look _ =>
          exact Or.inl ⟨course.batch, rfl, rfl⟩
      | @collect index _ _ _ found returned =>
          exact Or.inl ⟨course.batch.collect index, rfl,
            (Batch.collect_frame found returned).2.1⟩
      | @request index _ _ _ _ _ =>
          exact Or.inr ⟨(Batch.request_frame course.batch index).2.2.2.1, rfl⟩
      | giveUp found waits _ =>
          exact Or.inr ⟨(Batch.giveUp_frame found waits _).2.2.2.1, rfl⟩
      | begin _ _ _ _ =>
          exact Or.inr ⟨rfl, rfl⟩
      | proceed _ _ _ =>
          exact Or.inr ⟨rfl, rfl⟩
      | finish found _ =>
          refine Or.inr ⟨?_, rfl⟩
          rw [batch_finish found]
          exact (Batch.release_frame _).2.2.2.1

/-- While the context goes on, the collector leaves no task in the hold that is ready. -/
def Prompt (course : Course) : Prop :=
  course.opened = true → course.ended = none →
    ∀ (index : Nat) (task : BatchTask),
      course.batch.tasks[index]? = some task →
      task.place = .held →
      course.batch.isReady task = false

/-- Whatever happens, no task that is ready is left in the hold. -/
theorem prompt_of_moves
    (moves : Moves policy course next)
    (permitted : course.batch.Permitted limit)
    (inOrder : ∀ index < course.batch.tasks.length, index ∈ course.batch.order)
    (prompt : course.Prompt) :
    next.Prompt := by
  intro hasLooked goesOn index later laterFound laterHeld
  obtain ⟨task, own, found, _, sameAwaited, taskMoves, _⟩ :=
    origin_of_moves moves permitted laterFound
  rcases dispatches_or_keeps_tally moves with
    ⟨batch, dispatched, sameOrder⟩ | ⟨sameTally, sameLooked⟩
  · have inTurn : index ∈ batch.order := by
      rw [sameOrder]
      exact inOrder index (List.getElem?_eq_some_iff.mp found).1
    rw [dispatched, goesOn] at laterFound
    rw [dispatched, Batch.isReady_dispatch]
    exact Batch.not_isReady_of_held_dispatch inTurn laterFound laterHeld
  · have stillGoesOn : course.ended = none := by
      by_contra hasEnded
      exact ended_of_moves moves hasEnded goesOn
    have held : task.place = .held := by
      by_contra notHeld
      exact taskMoves.place_ne_held notHeld laterHeld
    have notReady :=
      prompt (sameLooked.symm.trans hasLooked) stillGoesOn index task found held
    simpa only [Batch.isReady, sameTally, sameAwaited] using notReady

/-- Tasks start when and only when what they await is over. -/
structure Orderly (course : Course) : Prop where
  counted :
    course.batch.Counted
  cleared :
    course.Cleared
  heralded :
    course.Heralded
  prompt :
    course.Prompt

/-- Whatever has happened, tasks start when and only when what they await is over. -/
theorem orderly_of_reaches
    {calls : List Call}
    {schedule : Schedule}
    {failFast : Bool}
    (sameRanks : schedule.ranks.length = calls.length)
    (sameAwaited : schedule.awaited.length = calls.length)
    (reaches :
      Reaches policy { batch := .start calls schedule limit failFast } course) :
    course.Orderly := by
  induction reaches with
  | refl =>
      refine ⟨Batch.Counted.start sameAwaited limit failFast, ?_, ?_, ?_⟩
      · intro index other task required found _ notHeld _
        obtain ⟨entry, _, isTask⟩ :=
          List.mem_map.mp (List.mem_of_getElem? found)
        rw [← isTask] at notHeld
        exact (notHeld rfl).elim
      · intro index other task required _ _ _ event _
        exact BatchEvent.whenever_nil
      · intro hasLooked
        cases hasLooked
  | @tail middle next earlier moves orderly =>
      have carries := Carries.of_reaches earlier
      have traced := Traced.of_reaches earlier
      have tracedNext := traced.of_moves moves carries.permitted
      have countedNext :=
        counted_of_moves moves carries.permitted traced orderly.counted
      have inTurn :
          ∀ index < middle.batch.tasks.length, index ∈ middle.batch.order := by
        intro index inside
        rw [carries.sameOrder, Schedule.mem_startOrder, sameRanks]
        rw [carries.length_tasks sameAwaited] at inside
        exact inside
      exact ⟨countedNext,
        cleared_of_moves moves carries.permitted tracedNext countedNext
          orderly.cleared,
        heralded_of_moves moves carries.permitted traced orderly.cleared
          orderly.heralded,
        prompt_of_moves moves carries.permitted inTurn orderly.prompt⟩

/-- Calls are carried out in the order that a table of dependencies asks for. -/
structure InOrder
    (calls : List Call) (table : List (String × List String)) (course : Course) :
    Prop where
  /-- A call is let go only when every call listed for it is stored as it finished. -/
  cleared :
    ∀ (index other : Nat) (call required : Call),
      calls[index]? = some call →
      calls[other]? = some required →
      Dependency.Listed table call.id required.id →
      course.batch.place? index ≠ some .held →
      ∃ result,
        course.batch.place? other = some (.collected result) ∧
          .finished other result ∈ course.history
  /-- Whatever happens to a call, it happens after every call listed for it has finished
  and is stored. -/
  heralded :
    ∀ (index other : Nat) (call required : Call),
      calls[index]? = some call →
      calls[other]? = some required →
      Dependency.Listed table call.id required.id →
      ∀ event : BatchEvent, event.task? = some index →
        event.Whenever
          (fun earlier =>
            .collected other ∈ earlier ∧ ∃ result, .finished other result ∈ earlier)
          course.history
  /-- While the context goes on, a call is held back only by a call that is listed for it
  and not stored yet; listed names that no call has do not hold it back. -/
  prompt :
    course.opened = true → course.ended = none →
      ∀ (index : Nat) (call : Call),
        calls[index]? = some call →
        course.batch.place? index = some .held →
        ∃ (other : Nat) (required : Call),
          calls[other]? = some required ∧
            Dependency.Listed table call.id required.id ∧
              ∀ result, course.batch.place? other ≠ some (.collected result)

/-- Tasks that start when what they await is over carry out their calls in order. -/
theorem inOrder_of_orderly
    {calls : List Call}
    {table : List (String × List String)}
    {schedule : Schedule}
    {failFast : Bool}
    (awaits : schedule.Awaits calls table)
    (carries : Carries calls schedule limit failFast course)
    (orderly : course.Orderly) :
    course.InOrder calls table := by
  obtain ⟨_, sameAwaited, awaitsListed⟩ := awaits
  have requiredOf :
      ∀ {index other : Nat} {call required : Call},
        calls[index]? = some call →
        calls[other]? = some required →
        Dependency.Listed table call.id required.id →
        ∃ task requiredTask,
          course.batch.tasks[index]? = some task ∧
            course.batch.tasks[other]? = some requiredTask ∧
              requiredTask.call.id ∈ task.awaited := by
    intro index other call required given givenRequired listed
    obtain ⟨task, awaited, found, isCall, isAwaited, inSchedule⟩ :=
      carries.task_of_call sameAwaited given
    obtain ⟨requiredTask, _, requiredFound, isRequired, _, _⟩ :=
      carries.task_of_call sameAwaited givenRequired
    refine ⟨task, requiredTask, found, requiredFound, ?_⟩
    rw [isRequired, isAwaited]
    exact (awaitsListed index call awaited given inSchedule required.id).mpr
      ⟨listed, required, List.mem_of_getElem? givenRequired, rfl⟩
  refine ⟨?_, ?_, ?_⟩
  · intro index other call required given givenRequired listed notHeld
    obtain ⟨task, requiredTask, found, requiredFound, isAwaited⟩ :=
      requiredOf given givenRequired listed
    have taskNotHeld : task.place ≠ .held := by
      intro held
      apply notHeld
      simp [Batch.place?, found, held]
    obtain ⟨result, stored, hasFinished⟩ :=
      orderly.cleared index other task requiredTask found requiredFound
        taskNotHeld isAwaited
    exact ⟨result, by simp [Batch.place?, requiredFound, stored], hasFinished⟩
  · intro index other call required given givenRequired listed
    obtain ⟨task, requiredTask, found, requiredFound, isAwaited⟩ :=
      requiredOf given givenRequired listed
    exact orderly.heralded index other task requiredTask found requiredFound isAwaited
  · intro hasLooked goesOn index call given placed
    obtain ⟨task, awaited, found, isCall, isAwaited, inSchedule⟩ :=
      carries.task_of_call sameAwaited given
    have held : task.place = .held := by
      simpa [Batch.place?, found] using placed
    have notReady := orderly.prompt hasLooked goesOn index task found held
    obtain ⟨id, inAwaited, notNone⟩ := List.all_eq_false.mp notReady
    rw [isAwaited] at inAwaited
    obtain ⟨listed, _⟩ :=
      (awaitsListed index call awaited given inSchedule id).mp inAwaited
    obtain ⟨requiredTask, member, sameId, notStored⟩ :=
      orderly.counted.exists_of_count_ne_zero (by simpa using notNone)
    obtain ⟨other, requiredFound⟩ := List.mem_iff_getElem?.mp member
    have givenRequired := carries.call_of_task requiredFound
    refine ⟨other, requiredTask.call, givenRequired, by rw [sameId]; exact listed, ?_⟩
    intro result placedSo
    have stored : requiredTask.place = .collected result := by
      simpa [Batch.place?, requiredFound] using placedSo
    rw [stored] at notStored
    cases notStored

end Course

namespace Conduct

variable {policy : RetryPolicy} {config : BatchConfig} {calls : List Call}
  {table : Option (List (String × List String))} {limit : Nat} {now : Instant}
  {course : Course}

/-- Calls side by side are carried out in the order that their dependencies ask for,
whatever happens and in whatever order it happens. -/
theorem inOrder_of_reaches
    (reaches :
      Reaches policy (start config calls table limit now) (together course)) :
    course.InOrder calls (table.getD []) := by
  obtain ⟨schedule, made, courseReaches⟩ := course_of_reaches reaches
  have awaits := Execution.awaits_scheduleOf made
  exact Course.inOrder_of_orderly awaits
    (Course.Carries.of_reaches courseReaches)
    (Course.orderly_of_reaches awaits.1 awaits.2.1 courseReaches)

/-- A call that depends on another one begins after the other one is stored. -/
theorem inOrder_of_reaches_second_begun :
    ∃ course : Course,
      Reaches {} (start {} [⟨"a", "t", .null, none⟩, ⟨"b", "t", .null, none⟩]
        (some [("b", ["a"])]) 1 0) (together course) ∧
        .began 1 ∈ course.history ∧
          course.InOrder [⟨"a", "t", .null, none⟩, ⟨"b", "t", .null, none⟩]
            [("b", ["a"])] := by
  have looked :
      Reaches {} (start {} [⟨"a", "t", .null, none⟩, ⟨"b", "t", .null, none⟩]
        (some [("b", ["a"])]) 1 0)
        (together (Course.look {
          batch := Batch.start [⟨"a", "t", .null, none⟩, ⟨"b", "t", .null, none⟩]
            ⟨[0, 1], [[], ["a"]]⟩ 1 false })) :=
    .single (.step (.together (.look rfl)))
  have asked := looked.tail
    (.step (.together (@Course.Step.request _ _ 0 _ rfl rfl rfl (by decide))))
  have begun := asked.tail
    (.step (.together (@Course.Step.begin _ _ 0 _ _ rfl rfl rfl .admitted)))
  have answered := begun.tail
    (.step (.together (@Course.Step.proceed _ _ 0 _ _ _ rfl rfl
      (.attempted false (show (AttemptOutcome.text "done").Fits none from rfl)))))
  have finished := answered.tail
    (.step (.together (@Course.Step.finish _ _ 0 _ _ rfl rfl)))
  have stored := finished.tail
    (.step (.together (@Course.Step.collect _ _ 0 _ _ _ rfl rfl)))
  have askedAgain := stored.tail
    (.step (.together (@Course.Step.request _ _ 1 _ rfl rfl rfl (by decide))))
  have begunAgain := askedAgain.tail
    (.step (.together (@Course.Step.begin _ _ 1 _ _ rfl rfl rfl .admitted)))
  exact ⟨_, begunAgain, by decide, inOrder_of_reaches begunAgain⟩

end Conduct

end Runbook
