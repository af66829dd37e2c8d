import Runbook.Proofs.Batch.Permits

namespace Runbook

/-!
# One task at a time

A move of a batch may touch many tasks at once: a dispatch queues several, and a permit
that comes back goes to the first of the line.  Seen from one task, however, every move
leaves it where it is or takes it one place further, and adds the events of just that
transition to its own part of the history.
-/

namespace BatchEvent

/-- The part of a history that is about one task. -/
def ofTask (index : Nat) (history : List BatchEvent) : List BatchEvent :=
  history.filter fun event => event.task? == some index

@[simp] theorem ofTask_nil
    (index : Nat) :
    ofTask index [] = [] :=
  rfl

@[simp] theorem ofTask_append
    (index : Nat)
    (first second : List BatchEvent) :
    ofTask index (first ++ second) = ofTask index first ++ ofTask index second := by
  simp [ofTask]

theorem ofTask_cons
    (index : Nat)
    (event : BatchEvent)
    (rest : List BatchEvent) :
    ofTask index (event :: rest) =
      if event.task? = some index then event :: ofTask index rest
      else ofTask index rest := by
  by_cases own : event.task? = some index
  · simp [ofTask, own]
  · simp [ofTask, own]

/-- A history has the events that its parts have. -/
theorem mem_ofTask
    {index : Nat}
    {event : BatchEvent}
    (own : event.task? = some index)
    (history : List BatchEvent) :
    event ∈ ofTask index history ↔ event ∈ history := by
  simp [ofTask, own]

/-- Reaching a stage is about the task that reaches it. -/
theorem task?_of_mem_ofStage
    {index : Nat}
    {stage : Stage String}
    {event : BatchEvent}
    (member : event ∈ ofStage index stage) :
    event.task? = some index := by
  cases stage with
  | attempting attempt =>
      rw [List.mem_singleton.mp member]
      rfl
  | resting attempt =>
      cases member
  | ended ending =>
      rw [List.mem_singleton.mp member]
      rfl

/-- All events of one task are about it, and none is about another. -/
theorem ofTask_of_forall
    {index : Nat}
    {events : List BatchEvent}
    (own : ∀ event ∈ events, event.task? = some index)
    (other : Nat) :
    ofTask other events = if index = other then events else [] := by
  by_cases same : index = other
  · rw [if_pos same]
    exact List.filter_eq_self.mpr fun event member => by
      simp [own event member, same]
  · rw [if_neg same]
    exact List.filter_eq_nil_iff.mpr fun event member => by
      simp [own event member, same]

end BatchEvent

/-- What a move of a batch is to one task: the place to which it takes the task, and the
events about the task. -/
inductive TaskMoves
    (policy : RetryPolicy) (course next : Course) (index : Nat) (task : BatchTask) :
    TaskPlace → List BatchEvent → Prop where
  | stays :
      TaskMoves policy course next index task task.place []
  | started :
      task.place = .held →
      next.ended = none →
      next.batch.isReady task = true →
      TaskMoves policy course next index task .queued []
  | granted :
      task.place = .queued →
      TaskMoves policy course next index task .granted []
  | gaveUp {fault : Fault} :
      (task.place = .queued ∨ task.place = .granted) →
      course.ended = some fault →
      TaskMoves policy course next index task
        (.returned (task.call.settle (.error fault)) false)
        [.gaveUp index]
  | began {stage : Stage String} :
      task.place = .granted →
      course.ended = none →
      Stage.Opens task.call.name course.ended stage →
      TaskMoves policy course next index task
        (.running stage)
        (.began index :: BatchEvent.ofStage index stage)
  | proceeded {stage later : Stage String} :
      task.place = .running stage →
      Stage.Proceeds policy task.call.name course.ended stage later →
      TaskMoves policy course next index task
        (.running later)
        (BatchEvent.ofStage index later)
  | finished {ending : Ending String} :
      task.place = .running (.ended ending) →
      TaskMoves policy course next index task
        (.returned (Course.settled task ending) true)
        (.finished index (Course.settled task ending) ::
          if course.batch.trips (Course.settled task ending) course.ended then
            [.tripped index]
          else [])
  | collected {call : Call} {began : Bool} :
      task.place = .returned call began →
      TaskMoves policy course next index task
        (.collected (Batch.keep course.batch.trippedBy task.call call began))
        [.collected index]

namespace TaskMoves

variable {policy : RetryPolicy} {course next : Course} {index : Nat} {task : BatchTask}
  {place : TaskPlace} {own : List BatchEvent}

/-- A held task stays or is queued because it is ready, without a word. -/
theorem of_held
    (moves : TaskMoves policy course next index task place own)
    (held : task.place = .held) :
    own = [] ∧
      (place = .held ∨
        (place = .queued ∧ next.ended = none ∧ next.batch.isReady task = true)) := by
  cases moves with
  | stays =>
      exact ⟨rfl, Or.inl held⟩
  | started _ goesOn ready =>
      exact ⟨rfl, Or.inr ⟨rfl, goesOn, ready⟩⟩
  | granted queued =>
      rw [queued] at held
      cases held
  | gaveUp waits _ =>
      rcases waits with queued | granted
      · rw [queued] at held
        cases held
      · rw [granted] at held
        cases held
  | began granted _ _ =>
      rw [granted] at held
      cases held
  | proceeded running _ =>
      rw [running] at held
      cases held
  | finished running =>
      rw [running] at held
      cases held
  | collected returned =>
      rw [returned] at held
      cases held

/-- No task is put into the hold again. -/
theorem place_ne_held
    (moves : TaskMoves policy course next index task place own)
    (notHeld : task.place ≠ .held) :
    place ≠ .held := by
  cases moves with
  | stays =>
      exact notHeld
  | _ =>
      simp

/-- A collected task stays. -/
theorem of_collected
    {result : Call}
    (moves : TaskMoves policy course next index task place own)
    (stored : task.place = .collected result) :
    own = [] ∧ place = .collected result := by
  cases moves with
  | stays =>
      exact ⟨rfl, stored⟩
  | started held _ _ =>
      rw [held] at stored
      cases stored
  | granted queued =>
      rw [queued] at stored
      cases stored
  | gaveUp waits _ =>
      rcases waits with queued | granted
      · rw [queued] at stored
        cases stored
      · rw [granted] at stored
        cases stored
  | began granted _ _ =>
      rw [granted] at stored
      cases stored
  | proceeded running _ =>
      rw [running] at stored
      cases stored
  | finished running =>
      rw [running] at stored
      cases stored
  | collected returned =>
      rw [returned] at stored
      cases stored

end TaskMoves

namespace Batch

variable {limit : Nat} {batch : Batch}

theorem isReady_dispatch
    (batch : Batch)
    (ended : Option Fault)
    (task : BatchTask) :
    (batch.dispatch ended).isReady task = batch.isReady task := by
  have sameTally : (batch.dispatch ended).tally = batch.tally :=
    (dispatch_frame batch ended).2.2.2.2.1
  simp only [isReady, sameTally]

/-- When a task passes its permit on, it is at its new place. -/
theorem passOn_self
    (permitted : batch.Permitted limit)
    {index : Nat}
    {task : BatchTask}
    (found : batch.tasks[index]? = some task)
    (holds : task.place.holdsPermit = true)
    (place : TaskPlace) :
    (batch.move index place).release.tasks[index]? =
      some { task with place := place } := by
  have outside : index ∉ batch.line := by
    apply permitted.not_mem_line found
    intro queued
    rw [queued] at holds
    cases holds
  cases waiting : batch.line with
  | nil =>
      rw [release_of_empty (show (batch.move index place).line = [] from waiting)]
      exact getElem?_move_self found place
  | cons first rest =>
      have different : first ≠ index := by
        intro same
        apply outside
        simp [waiting, same]
      rw [release_of_cons (show (batch.move index place).line = first :: rest from waiting),
        getElem?_move_of_ne _ different]
      exact getElem?_move_self found place

/-- When a task passes its permit on, another task stays where it is or is granted the
permit for which it waits. -/
theorem passOn_other
    (permitted : batch.Permitted limit)
    {index other : Nat}
    {task : BatchTask}
    (different : index ≠ other)
    (found : batch.tasks[other]? = some task)
    (place : TaskPlace) :
    (batch.move index place).release.tasks[other]? = some task ∨
      (task.place = .queued ∧
        (batch.move index place).release.tasks[other]? =
          some { task with place := .granted }) := by
  have moved : (batch.move index place).tasks[other]? = some task :=
    (getElem?_move_of_ne batch different place).trans found
  cases waiting : batch.line with
  | nil =>
      rw [release_of_empty (show (batch.move index place).line = [] from waiting)]
      exact Or.inl moved
  | cons first rest =>
      rw [release_of_cons (show (batch.move index place).line = first :: rest from waiting)]
      by_cases isFirst : first = other
      · obtain ⟨firstTask, firstFound, queued⟩ :=
          permitted.lineQueued first (by simp [waiting])
        rw [isFirst] at firstFound ⊢
        have same : task = firstTask :=
          Option.some.inj (found.symm.trans firstFound)
        rw [same] at moved ⊢
        exact Or.inr ⟨queued, getElem?_move_self moved .granted⟩
      · rw [getElem?_move_of_ne _ isFirst]
        exact Or.inl moved

end Batch

namespace Course

variable {policy : RetryPolicy} {limit : Nat} {course next : Course}

/-- A move takes a task to a place, and the history grows accordingly. -/
def Takes
    (policy : RetryPolicy) (course next : Course) (index : Nat) (task : BatchTask) : Prop :=
  ∃ (place : TaskPlace) (own : List BatchEvent),
    next.batch.tasks[index]? = some { task with place := place } ∧
      TaskMoves policy course next index task place own ∧
        BatchEvent.ofTask index next.history =
          BatchEvent.ofTask index course.history ++ own

private theorem takes_of_same
    {index : Nat}
    {task : BatchTask}
    (same : next.batch.tasks[index]? = some task)
    (silent : BatchEvent.ofTask index next.history =
      BatchEvent.ofTask index course.history) :
    Takes policy course next index task :=
  ⟨task.place, [], same, .stays, by simpa using silent⟩

/-- A task that is neither moved nor queued by a dispatch stays. -/
private theorem takes_of_dispatch
    {batch : Batch}
    {index : Nat}
    {task : BatchTask}
    (found : batch.tasks[index]? = some task)
    (dispatched : next.batch = batch.dispatch course.ended)
    (sameEnd : next.ended = course.ended)
    (silent : BatchEvent.ofTask index next.history =
      BatchEvent.ofTask index course.history) :
    Takes policy course next index task := by
  rcases Batch.dispatch_task found course.ended with
    same | ⟨held, ready, goesOn, queued⟩
  · exact takes_of_same (by rw [dispatched, same]) silent
  · refine ⟨.queued, [], by rw [dispatched, queued], ?_, by simpa using silent⟩
    apply TaskMoves.started held (sameEnd.trans goesOn)
    rw [dispatched, Batch.isReady_dispatch]
    exact ready

private theorem takes_of_collect
    {index stored : Nat}
    {task returned : BatchTask}
    {call : Call}
    {began : Bool}
    (storedFound : course.batch.tasks[stored]? = some returned)
    (isReturned : returned.place = .returned call began)
    (found : course.batch.tasks[index]? = some task) :
    Takes policy course (course.collect stored) index task := by
  have shape := Batch.collect_of_returned storedFound isReturned
  by_cases same : stored = index
  · subst same
    have sameTask : returned = task :=
      Option.some.inj (storedFound.symm.trans found)
    subst sameTask
    have moved :
        (course.batch.collect stored).tasks[stored]? =
          some { returned with
            place := .collected
              (Batch.keep course.batch.trippedBy returned.call call began) } := by
      rw [shape]
      exact Batch.getElem?_move_self found _
    refine ⟨_, _, ?_, .collected isReturned, ?_⟩
    · rcases Batch.dispatch_task moved course.ended with stays | ⟨held, _, _, _⟩
      · exact stays
      · cases held
    · simp [collect, BatchEvent.ofTask_cons, BatchEvent.task?]
  · have unmoved : (course.batch.collect stored).tasks[index]? = some task := by
      rw [shape, Batch.getElem?_move_of_ne _ same]
      exact found
    refine takes_of_dispatch unmoved rfl rfl ?_
    simp [collect, BatchEvent.ofTask_cons, BatchEvent.task?, same]

private theorem takes_of_request
    {index asking : Nat}
    {task waiting : BatchTask}
    (askingFound : course.batch.tasks[asking]? = some waiting)
    (queued : waiting.place = .queued)
    (found : course.batch.tasks[index]? = some task) :
    Takes policy course (course.request asking) index task := by
  by_cases free : 0 < course.batch.permits
  · have shape := Batch.request_of_free free asking
    by_cases same : asking = index
    · subst same
      have sameTask : waiting = task :=
        Option.some.inj (askingFound.symm.trans found)
      subst sameTask
      refine ⟨.granted, [], ?_, .granted queued, by simp [request]⟩
      simp only [request, shape]
      exact Batch.getElem?_move_self found _
    · refine takes_of_same ?_ rfl
      simp only [request, shape]
      exact (Batch.getElem?_move_of_ne _ same _).trans found
  · refine takes_of_same ?_ rfl
    simp only [request, Batch.request_of_full (Nat.eq_zero_of_not_pos free)]
    exact found

/-- A task that passes its permit on moves by itself, and at most one other task moves:
one that waits and is granted the permit. -/
private theorem takes_of_passOn
    {batch : Batch}
    {index leaving : Nat}
    {task left : BatchTask}
    {place : TaskPlace}
    {own : List BatchEvent}
    (passedOn : next.batch = (batch.move leaving place).release)
    (permitted : batch.Permitted limit)
    (leavingFound : batch.tasks[leaving]? = some left)
    (holds : left.place.holdsPermit = true)
    (found : batch.tasks[index]? = some task)
    (grown : next.history = course.history ++ own)
    (ownEvents : ∀ event ∈ own, event.task? = some leaving)
    (moves : TaskMoves policy course next leaving left place own) :
    Takes policy course next index task := by
  have part :
      BatchEvent.ofTask index next.history =
        BatchEvent.ofTask index course.history ++
          if leaving = index then own else [] := by
    rw [grown, BatchEvent.ofTask_append,
      BatchEvent.ofTask_of_forall ownEvents]
  by_cases same : leaving = index
  · subst same
    have sameTask : left = task :=
      Option.some.inj (leavingFound.symm.trans found)
    subst sameTask
    refine ⟨place, own, ?_, moves, by simpa using part⟩
    rw [passedOn]
    exact Batch.passOn_self permitted found holds place
  · have silent :
        BatchEvent.ofTask index next.history =
          BatchEvent.ofTask index course.history := by
      simpa [same] using part
    rcases Batch.passOn_other permitted same found place with
      stays | ⟨queued, granted⟩
    · exact takes_of_same (by rw [passedOn, stays]) silent
    · exact ⟨.granted, [], by rw [passedOn, granted], .granted queued,
        by simpa using silent⟩

private theorem takes_of_enter
    {index entering : Nat}
    {task entered : BatchTask}
    {stage : Stage String}
    {events : List BatchEvent}
    (enteringFound : course.batch.tasks[entering]? = some entered)
    (found : course.batch.tasks[index]? = some task)
    (ownEvents : ∀ event ∈ events, event.task? = some entering)
    (moves : TaskMoves policy course (course.enter entering events stage) entering entered
      (.running stage) (events ++ BatchEvent.ofStage entering stage)) :
    Takes policy course (course.enter entering events stage) index task := by
  have allOwn :
      ∀ event ∈ events ++ BatchEvent.ofStage entering stage,
        event.task? = some entering := by
    intro event member
    rcases List.mem_append.mp member with isEarlier | isStage
    · exact ownEvents event isEarlier
    · exact BatchEvent.task?_of_mem_ofStage isStage
  have part :
      BatchEvent.ofTask index (course.enter entering events stage).history =
        BatchEvent.ofTask index course.history ++
          if entering = index then events ++ BatchEvent.ofStage entering stage
          else [] := by
    simp only [enter, List.append_assoc]
    rw [BatchEvent.ofTask_append, BatchEvent.ofTask_of_forall allOwn]
  by_cases same : entering = index
  · subst same
    have sameTask : entered = task :=
      Option.some.inj (enteringFound.symm.trans found)
    subst sameTask
    exact ⟨_, _, Batch.getElem?_move_self found _, moves, by simpa using part⟩
  · exact takes_of_same
      ((Batch.getElem?_move_of_ne _ same _).trans found)
      (by simpa [same] using part)

/-- A move leaves each task where it is or takes it one place further. -/
theorem takes_of_moves
    (moves : Moves policy course next)
    (permitted : course.batch.Permitted limit)
    {index : Nat}
    {task : BatchTask}
    (found : course.batch.tasks[index]? = some task) :
    Takes policy course next index task := by
  cases moves with
  | outside ends =>
      exact takes_of_same found
        (by simp [endContext, BatchEvent.ofTask_cons, BatchEvent.task?])
  | step step =>
      cases step with
      | look _ =>
          exact takes_of_dispatch found rfl rfl rfl
      | collect storedFound returned =>
          exact takes_of_collect storedFound returned found
      | request askingFound queued _ _ =>
          exact takes_of_request askingFound queued found
      | @giveUp leaving left fault leavingFound waits ended =>
          rcases waits with queued | granted
          · by_cases same : leaving = index
            · subst same
              have sameTask : left = task :=
                Option.some.inj (leavingFound.symm.trans found)
              subst sameTask
              refine ⟨_, _, ?_, .gaveUp (Or.inl queued) ended, ?_⟩
              · simp only [Course.giveUp, Batch.giveUp_of_queued found queued]
                exact Batch.getElem?_move_self found _
              · simp [Course.giveUp, BatchEvent.ofTask_cons, BatchEvent.task?]
            · refine takes_of_same ?_ ?_
              · simp only [Course.giveUp, Batch.giveUp_of_queued leavingFound queued]
                exact (Batch.getElem?_move_of_ne _ same _).trans found
              · simp [Course.giveUp, BatchEvent.ofTask_cons, BatchEvent.task?, same]
          · exact takes_of_passOn (Batch.giveUp_of_granted leavingFound granted fault)
              permitted leavingFound
              (by simp [granted, TaskPlace.holdsPermit]) found rfl
              (by simp [BatchEvent.task?])
              (.gaveUp (Or.inr granted) ended)
      | @begin entering entered stage enteringFound granted goesOn opens =>
          exact takes_of_enter enteringFound found
            (by simp [BatchEvent.task?])
            (.began granted goesOn opens)
      | @proceed entering entered stage later enteringFound running proceeds =>
          exact takes_of_enter enteringFound found
            (by simp)
            (.proceeded running proceeds)
      | @finish leaving left ending leavingFound running =>
          refine takes_of_passOn (batch_finish leavingFound ending) (permitted.mark _)
            leavingFound (by simp [running, TaskPlace.holdsPermit]) found
            (history_finish leavingFound ending) ?_ (.finished running)
          · intro event member
            split at member
            · rcases List.mem_cons.mp member with isFinish | isTrip
              · rw [isFinish]
                rfl
              · rw [List.mem_singleton.mp isTrip]
                rfl
            · rw [List.mem_singleton.mp member]
              rfl

/-! ### What no move changes -/

/-- No move adds a task or drops one, changes the order in which tasks are started, or how
the batch takes failures. -/
theorem frame_of_moves
    (moves : Moves policy course next) :
    next.batch.tasks.length = course.batch.tasks.length ∧
      next.batch.order = course.batch.order ∧
      next.batch.failFast = course.batch.failFast := by
  cases moves with
  | outside _ =>
      exact ⟨rfl, rfl, rfl⟩
  | step step =>
      cases step with
      | look _ =>
          obtain ⟨sameLength, sameOrder, sameMode, _⟩ :=
            Batch.dispatch_frame course.batch course.ended
          exact ⟨sameLength, sameOrder, sameMode⟩
      | @collect index _ _ _ found returned =>
          obtain ⟨sameLength, sameOrder, sameMode, _⟩ :=
            Batch.dispatch_frame (course.batch.collect index) course.ended
          obtain ⟨storedLength, storedOrder, storedMode, _⟩ :=
            Batch.collect_frame found returned
          exact ⟨sameLength.trans storedLength, sameOrder.trans storedOrder,
            sameMode.trans storedMode⟩
      | @request index _ _ _ _ _ =>
          obtain ⟨sameLength, sameOrder, sameMode, _⟩ :=
            Batch.request_frame course.batch index
          exact ⟨sameLength, sameOrder, sameMode⟩
      | giveUp found waits _ =>
          obtain ⟨sameLength, sameOrder, sameMode, _⟩ :=
            Batch.giveUp_frame found waits _
          exact ⟨sameLength, sameOrder, sameMode⟩
      | begin _ _ _ _ =>
          simp [enter, Batch.begin]
      | proceed _ _ _ =>
          simp [enter, Batch.begin]
      | @finish index task ending found running =>
          rw [batch_finish found]
          obtain ⟨sameLength, sameOrder, sameMode, _⟩ := Batch.release_frame _
          refine ⟨sameLength.trans ?_, sameOrder, sameMode⟩
          rw [Batch.length_tasks_move]

/-- A task comes from the task that was in its place before the move. -/
theorem origin_of_moves
    (moves : Moves policy course next)
    (permitted : course.batch.Permitted limit)
    {index : Nat}
    {later : BatchTask}
    (laterFound : next.batch.tasks[index]? = some later) :
    ∃ (task : BatchTask) (own : List BatchEvent),
      course.batch.tasks[index]? = some task ∧
        later.call = task.call ∧ later.awaited = task.awaited ∧
          TaskMoves policy course next index task later.place own ∧
            BatchEvent.ofTask index next.history =
              BatchEvent.ofTask index course.history ++ own := by
  have inside : index < course.batch.tasks.length := by
    rw [← (frame_of_moves moves).1]
    exact (List.getElem?_eq_some_iff.mp laterFound).1
  have found := List.getElem?_eq_getElem inside
  obtain ⟨place, own, nextFound, taskMoves, part⟩ :=
    takes_of_moves moves permitted found
  have isLater := Option.some.inj (nextFound.symm.trans laterFound)
  subst isLater
  exact ⟨_, own, found, rfl, rfl, taskMoves, part⟩

/-- The course carries out these calls under this schedule and limit. -/
structure Carries
    (calls : List Call) (schedule : Schedule) (limit : Nat) (failFast : Bool)
    (course : Course) : Prop where
  permitted :
    course.batch.Permitted limit
  sameTasks :
    course.batch.tasks.map (fun task => (task.call, task.awaited)) =
      calls.zip schedule.awaited
  sameOrder :
    course.batch.order = schedule.startOrder
  sameMode :
    course.batch.failFast = failFast

namespace Carries

variable {calls : List Call} {schedule : Schedule} {failFast : Bool}

theorem start
    (calls : List Call)
    (schedule : Schedule)
    (limit : Nat)
    (failFast : Bool) :
    Carries calls schedule limit failFast
      { batch := .start calls schedule limit failFast } := by
  refine ⟨Batch.Permitted.start calls schedule limit failFast, ?_, rfl, rfl⟩
  simp [Batch.start, Function.comp_def]

theorem of_moves
    (carries : Carries calls schedule limit failFast course)
    (moves : Moves policy course next) :
    Carries calls schedule limit failFast next := by
  obtain ⟨sameLength, sameOrder, sameMode⟩ := frame_of_moves moves
  refine ⟨permitted_of_moves moves carries.permitted, ?_,
    sameOrder.trans carries.sameOrder, sameMode.trans carries.sameMode⟩
  rw [← carries.sameTasks]
  apply List.ext_getElem?
  intro index
  rw [List.getElem?_map, List.getElem?_map]
  cases found : course.batch.tasks[index]? with
  | none =>
      have missing : next.batch.tasks[index]? = none := by
        rw [List.getElem?_eq_none_iff, sameLength]
        exact List.getElem?_eq_none_iff.mp found
      rw [missing]
  | some task =>
      obtain ⟨place, own, nextFound, _, _⟩ :=
        takes_of_moves moves carries.permitted found
      rw [nextFound]
      rfl

/-- Whatever has happened, the calls are the calls with which the batch started. -/
theorem of_reaches
    (reaches :
      Reaches policy { batch := .start calls schedule limit failFast } course) :
    Carries calls schedule limit failFast course := by
  induction reaches with
  | refl =>
      exact start calls schedule limit failFast
  | tail _ moves inductionHypothesis =>
      exact inductionHypothesis.of_moves moves

/-- The task at a place carries out the call at that place. -/
theorem task_of_call
    (carries : Carries calls schedule limit failFast course)
    (sameLength : schedule.awaited.length = calls.length)
    {index : Nat}
    {call : Call}
    (given : calls[index]? = some call) :
    ∃ task awaited,
      course.batch.tasks[index]? = some task ∧
        task.call = call ∧
          task.awaited = awaited ∧ schedule.awaited[index]? = some awaited := by
  obtain ⟨inCalls, isCall⟩ := List.getElem?_eq_some_iff.mp given
  have inAwaited : index < schedule.awaited.length := by
    rw [sameLength]
    exact inCalls
  have zipped :
      (calls.zip schedule.awaited)[index]? =
        some (call, schedule.awaited[index]) := by
    rw [List.getElem?_zip_eq_some]
    exact ⟨given, List.getElem?_eq_getElem inAwaited⟩
  rw [← carries.sameTasks, List.getElem?_map, Option.map_eq_some_iff] at zipped
  obtain ⟨task, found, isEntry⟩ := zipped
  refine ⟨task, _, found, congrArg Prod.fst isEntry, congrArg Prod.snd isEntry, ?_⟩
  exact List.getElem?_eq_getElem inAwaited

/-- A task carries out the call at its place. -/
theorem call_of_task
    (carries : Carries calls schedule limit failFast course)
    {index : Nat}
    {task : BatchTask}
    (found : course.batch.tasks[index]? = some task) :
    calls[index]? = some task.call := by
  have zipped :
      (calls.zip schedule.awaited)[index]? = some (task.call, task.awaited) := by
    rw [← carries.sameTasks, List.getElem?_map, found]
    rfl
  exact (List.getElem?_zip_eq_some.mp zipped).1

/-- The tasks carry out the calls in their order. -/
theorem map_call
    (carries : Carries calls schedule limit failFast course)
    (sameLength : schedule.awaited.length = calls.length) :
    course.batch.tasks.map (·.call) = calls := by
  have sameCalls := congrArg (List.map Prod.fst) carries.sameTasks
  rw [List.map_map, List.map_fst_zip sameLength.ge] at sameCalls
  exact sameCalls

/-- There are as many tasks as calls. -/
theorem length_tasks
    (carries : Carries calls schedule limit failFast course)
    (sameLength : schedule.awaited.length = calls.length) :
    course.batch.tasks.length = calls.length := by
  rw [← carries.map_call sameLength, List.length_map]

end Carries

end Course

end Runbook
