import Runbook.Proofs.Batch.Conduct

namespace Runbook

/-!
# The traces of tasks

The part of the history that is about one task has a form, and the form is known from the
place of the task.  A task leaves no trace until it begins or gives up.  One that begins
goes on until its invocation returns, finishes, may trip the batch, and is collected.
-/

open BatchEvent

/-- The events of a task from its beginning to a stage of its invocation. -/
inductive Underway (index : Nat) : Stage String → List BatchEvent → Prop where
  | opened {stage : Stage String} :
      Underway index stage (began index :: ofStage index stage)
  | proceeded {stage later : Stage String} {events : List BatchEvent} :
      Underway index stage events →
      Underway index later (events ++ ofStage index later)

/-- The form of the events of a task, by the call that tripped the batch, the call that
the task was given, and its place. -/
inductive TaskForm (trippedBy : Option String) (index : Nat) (given : Call) :
    TaskPlace → List BatchEvent → Prop where
  | held :
      TaskForm trippedBy index given .held []
  | queued :
      TaskForm trippedBy index given .queued []
  | granted :
      TaskForm trippedBy index given .granted []
  | running {stage : Stage String} {events : List BatchEvent} :
      Underway index stage events →
      TaskForm trippedBy index given (.running stage) events
  | finished {ending : Ending String} {events closing : List BatchEvent} {call : Call} :
      Underway index (.ended ending) events →
      call = given.settle (ending.resultOr (Batch.breakdown given.name)) →
      closing = [] ∨ closing = [tripped index] →
      TaskForm trippedBy index given (.returned call true)
        (events ++ BatchEvent.finished index call :: closing)
  | gaveUp {fault : Fault} :
      fault.endsContext = true →
      TaskForm trippedBy index given (.returned (given.settle (.error fault)) false)
        [gaveUp index]
  | collected {call : Call} {began : Bool} {events : List BatchEvent} :
      TaskForm trippedBy index given (.returned call began) events →
      TaskForm trippedBy index given
        (.collected (Batch.keep trippedBy given call began))
        (events ++ [collected index])

namespace Underway

variable {index : Nat} {stage : Stage String} {events : List BatchEvent}

/-- A task that is under way has begun. -/
theorem mem_began
    (underway : Underway index stage events) :
    began index ∈ events := by
  induction underway with
  | opened =>
      exact List.mem_cons_self
  | proceeded _ inductionHypothesis =>
      exact List.mem_append_left _ inductionHypothesis

/-- An invocation that is over has returned its ending. -/
theorem mem_invoked
    {ending : Ending String}
    (underway : Underway index (.ended ending) events) :
    invoked index ending ∈ events := by
  cases underway with
  | opened =>
      simp [ofStage]
  | proceeded _ =>
      simp [ofStage]

/-- Until its invocation is over a task does nothing but begin and go on. -/
theorem kind_of_mem
    (underway : Underway index stage events)
    {event : BatchEvent}
    (member : event ∈ events) :
    event = began index ∨ (∃ attempt, event = attempted index attempt) ∨
      ∃ ending, event = invoked index ending := by
  have reached :
      ∀ stage : Stage String, event ∈ ofStage index stage →
        event = began index ∨ (∃ attempt, event = attempted index attempt) ∨
          ∃ ending, event = invoked index ending := by
    intro stage inStage
    cases stage with
    | attempting attempt =>
        exact Or.inr (Or.inl ⟨attempt, List.mem_singleton.mp inStage⟩)
    | resting attempt =>
        cases inStage
    | ended ending =>
        exact Or.inr (Or.inr ⟨ending, List.mem_singleton.mp inStage⟩)
  induction underway with
  | opened =>
      rcases List.mem_cons.mp member with isBeginning | inStage
      · exact Or.inl isBeginning
      · exact reached _ inStage
  | proceeded _ inductionHypothesis =>
      rcases List.mem_append.mp member with isEarlier | inStage
      · exact inductionHypothesis isEarlier
      · exact reached _ inStage

end Underway

namespace Call

@[simp] theorem id_settle
    (call : Call)
    (outcome : Except Fault String) :
    (call.settle outcome).id = call.id := by
  unfold settle
  split <;> rfl

@[simp] theorem name_settle
    (call : Call)
    (outcome : Except Fault String) :
    (call.settle outcome).name = call.name := by
  unfold settle
  split <;> rfl

end Call

namespace Batch

/-- A call that is kept of a settled one is settled. -/
theorem keep_settle
    (trippedBy : Option String)
    (given : Call)
    (outcome : Except Fault String)
    (began : Bool) :
    ∃ kept, keep trippedBy given (given.settle outcome) began = given.settle kept := by
  unfold keep
  split
  · split
    · exact ⟨_, rfl⟩
    · exact ⟨outcome, rfl⟩
  · exact ⟨outcome, rfl⟩

/-- The call of a task that began is kept as it is. -/
@[simp] theorem keep_of_began
    (trippedBy : Option String)
    (given call : Call) :
    keep trippedBy given call true = call := by
  simp [keep]

end Batch

namespace TaskForm

variable {policy : RetryPolicy} {course next : Course} {trippedBy : Option String}
  {index : Nat} {given : Call} {place : TaskPlace} {events own : List BatchEvent}

/-- A move of a task keeps its events in form. -/
theorem of_taskMoves
    {task : BatchTask}
    (endedByContext : ∀ fault, course.ended = some fault → fault.endsContext = true)
    (form : TaskForm course.batch.trippedBy index task.call task.place events)
    (moves : TaskMoves policy course next index task place own) :
    TaskForm course.batch.trippedBy index task.call place (events ++ own) := by
  cases moves with
  | stays =>
      rw [List.append_nil]
      exact form
  | started held _ _ =>
      rw [held] at form
      cases form
      exact .queued
  | granted queued =>
      rw [queued] at form
      cases form
      exact .granted
  | gaveUp waits ended =>
      rcases waits with queued | granted
      · rw [queued] at form
        cases form
        exact .gaveUp (endedByContext _ ended)
      · rw [granted] at form
        cases form
        exact .gaveUp (endedByContext _ ended)
  | began granted _ _ =>
      rw [granted] at form
      cases form
      exact .running .opened
  | proceeded running _ =>
      rw [running] at form
      cases form with
      | running underway =>
          exact .running (.proceeded underway)
  | finished running =>
      rw [running] at form
      cases form with
      | running underway =>
          refine .finished underway rfl ?_
          split
          · exact Or.inr rfl
          · exact Or.inl rfl
  | collected returned =>
      rw [returned] at form
      exact .collected form

/-- Unless the task gave up, it does not matter to it which call trips the batch. -/
theorem of_trip
    (form : TaskForm trippedBy index given place events)
    (keptWaiting : BatchEvent.gaveUp index ∉ events)
    (later : Option String) :
    TaskForm later index given place events := by
  cases form with
  | held =>
      exact .held
  | queued =>
      exact .queued
  | granted =>
      exact .granted
  | running underway =>
      exact .running underway
  | finished underway isSettled closes =>
      exact .finished underway isSettled closes
  | gaveUp endsContext =>
      exact .gaveUp endsContext
  | collected returned =>
      cases returned with
      | finished underway isSettled closes =>
          have kept : TaskForm later index given _ _ :=
            .collected (.finished underway isSettled closes)
          simpa using kept
      | gaveUp endsContext =>
          exact (keptWaiting (by simp)).elim

/-- The call that a task returns is its given call, settled. -/
theorem settles_returned
    {call : Call}
    {began : Bool}
    (form : TaskForm trippedBy index given (.returned call began) events) :
    ∃ outcome, call = given.settle outcome := by
  cases form with
  | finished _ isSettled _ =>
      exact ⟨_, isSettled⟩
  | gaveUp _ =>
      exact ⟨_, rfl⟩

/-- The call that is stored of a task is its given call, settled. -/
theorem settles_collected
    {call : Call}
    (form : TaskForm trippedBy index given (.collected call) events) :
    ∃ outcome, call = given.settle outcome := by
  cases form with
  | @collected _ began _ returned =>
      obtain ⟨outcome, isSettled⟩ := returned.settles_returned
      rw [isSettled]
      exact Batch.keep_settle trippedBy given outcome began

theorem mem_collected
    {call : Call}
    (form : TaskForm trippedBy index given (.collected call) events) :
    BatchEvent.collected index ∈ events := by
  cases form with
  | collected _ =>
      simp

/-- A task that is collected has finished the stored call, or gave up. -/
theorem finished_or_gaveUp
    {call : Call}
    (form : TaskForm trippedBy index given (.collected call) events) :
    BatchEvent.finished index call ∈ events ∨ BatchEvent.gaveUp index ∈ events := by
  cases form with
  | collected returned =>
      cases returned with
      | finished _ _ _ =>
          exact Or.inl (by simp)
      | gaveUp _ =>
          exact Or.inr (by simp)

/-- A task that has finished a call has returned it, and it is as the ending of the
invocation settles it. -/
theorem of_mem_finished
    {call : Call}
    (form : TaskForm trippedBy index given place events)
    (member : BatchEvent.finished index call ∈ events) :
    (place = .returned call true ∨ place = .collected call) ∧
      ∃ ending,
        BatchEvent.invoked index ending ∈ events ∧
          call = given.settle (ending.resultOr (Batch.breakdown given.name)) := by
  have returnedSo :
      ∀ {other : Call} {began : Bool} {shorter : List BatchEvent},
        TaskForm trippedBy index given (.returned other began) shorter →
        BatchEvent.finished index call ∈ shorter →
        began = true ∧ other = call ∧
          ∃ ending,
            BatchEvent.invoked index ending ∈ shorter ∧
              call = given.settle (ending.resultOr (Batch.breakdown given.name)) := by
    intro other began shorter returned inShorter
    cases returned with
    | @finished ending before closing _ underway isSettled closes =>
        have same : other = call := by
          rcases List.mem_append.mp inShorter with isBefore | isClosing
          · rcases underway.kind_of_mem isBefore with
              absurdity | ⟨_, absurdity⟩ | ⟨_, absurdity⟩
            · cases absurdity
            · cases absurdity
            · cases absurdity
          · rcases List.mem_cons.mp isClosing with isFinish | isTrip
            · cases isFinish
              rfl
            · rcases closes with isNil | isTripped
              · simp [isNil] at isTrip
              · simp [isTripped] at isTrip
        subst same
        exact ⟨rfl, rfl, ending,
          List.mem_append_left _ underway.mem_invoked, isSettled⟩
    | gaveUp _ =>
        simp at inShorter
  cases form with
  | held =>
      cases member
  | queued =>
      cases member
  | granted =>
      cases member
  | running underway =>
      rcases underway.kind_of_mem member with
        absurdity | ⟨_, absurdity⟩ | ⟨_, absurdity⟩
      · cases absurdity
      · cases absurdity
      · cases absurdity
  | finished underway isSettled closes =>
      obtain ⟨_, same, endingKnown⟩ :=
        returnedSo (.finished underway isSettled closes) member
      subst same
      exact ⟨Or.inl rfl, endingKnown⟩
  | gaveUp _ =>
      simp at member
  | @collected other began shorter returned =>
      have inShorter : BatchEvent.finished index call ∈ shorter := by
        simpa using member
      obtain ⟨hasBegun, same, ending, isInvoked, isSettled⟩ :=
        returnedSo returned inShorter
      subst hasBegun
      subst same
      exact ⟨Or.inr (by simp), ending, List.mem_append_left _ isInvoked, isSettled⟩

/-- A task that began and is not under way any more has finished, and its call is stored
as it finished. -/
theorem of_mem_began
    (form : TaskForm trippedBy index given place events)
    (isOver : place = .held ∨ place.isCollected = true)
    (member : BatchEvent.began index ∈ events) :
    ∃ call, place = .collected call ∧ BatchEvent.finished index call ∈ events := by
  cases form with
  | held =>
      cases member
  | queued =>
      cases member
  | granted =>
      cases member
  | running _ =>
      rcases isOver with isHeld | isCollected
      · cases isHeld
      · cases isCollected
  | finished _ _ _ =>
      rcases isOver with isHeld | isCollected
      · cases isHeld
      · cases isCollected
  | gaveUp _ =>
      simp at member
  | @collected call _ _ returned =>
      cases returned with
      | finished _ _ _ =>
          exact ⟨call, by simp, by simp⟩
      | gaveUp _ =>
          simp at member

/-- A task that is collected without having begun gave up with the context. -/
theorem of_not_mem_began
    {call : Call}
    (form : TaskForm trippedBy index given (.collected call) events)
    (neverBegan : BatchEvent.began index ∉ events) :
    ∃ fault : Fault,
      fault.endsContext = true ∧
        call = Batch.keep trippedBy given (given.settle (.error fault)) false := by
  cases form with
  | collected returned =>
      cases returned with
      | finished underway _ _ =>
          exact (neverBegan (by simp [underway.mem_began])).elim
      | @gaveUp fault endsContext =>
          exact ⟨fault, endsContext, rfl⟩

end TaskForm

namespace Course

variable {policy : RetryPolicy} {limit : Nat} {course next : Course}

/-- The history agrees with where the tasks are and with how the context stands. -/
structure Traced (course : Course) : Prop where
  form :
    ∀ (index : Nat) (task : BatchTask),
      course.batch.tasks[index]? = some task →
      TaskForm course.batch.trippedBy index task.call task.place
        (ofTask index course.history)
  endedByContext :
    ∀ fault, course.ended = some fault → fault.endsContext = true
  gaveUpLate :
    ∀ index, BatchEvent.gaveUp index ∈ course.history → course.ended ≠ none

namespace Traced

theorem start
    (calls : List Call)
    (schedule : Schedule)
    (limit : Nat)
    (failFast : Bool) :
    Traced { batch := .start calls schedule limit failFast } := by
  refine ⟨?_, ?_, ?_⟩
  · intro index task found
    obtain ⟨entry, _, isTask⟩ :=
      List.mem_map.mp (List.mem_of_getElem? found)
    rw [← isTask]
    exact .held
  · intro fault ended
    cases ended
  · intro index member
    cases member

theorem of_moves
    (traced : Traced course)
    (moves : Moves policy course next)
    (permitted : course.batch.Permitted limit) :
    Traced next := by
  refine ⟨?_, endsContext_of_moves moves traced.endedByContext, ?_⟩
  · intro index later laterFound
    obtain ⟨task, own, found, sameCall, _, taskMoves, part⟩ :=
      origin_of_moves moves permitted laterFound
    have form :=
      (traced.form index task found).of_taskMoves traced.endedByContext taskMoves
    rw [sameCall, part]
    cases affects_of_moves moves with
    | unaffected _ _ sameTrip _ _ =>
        rw [sameTrip]
        exact form
    | outside _ isNext =>
        rw [isNext]
        exact form
    | trips tripFound trips isNext =>
        -- The context went on until now, so no task has given up yet.
        obtain ⟨_, goesOn, _, _⟩ := Batch.trips_iff.mp trips
        apply form.of_trip
        intro member
        rw [← part, isNext, mem_ofTask rfl, history_finish tripFound, if_pos trips] at member
        exact traced.gaveUpLate index (by simpa using member) goesOn
  · intro index member
    apply ended_of_moves moves
    cases affects_of_moves moves with
    | unaffected _ _ _ grown admitted =>
        rw [grown] at member
        rcases List.mem_append.mp member with isEarlier | isNew
        · exact traced.gaveUpLate index isEarlier
        · exact admitted _ isNew
    | outside _ isNext =>
        rw [isNext] at member
        exact traced.gaveUpLate index (by simpa [endContext] using member)
    | trips tripFound trips isNext =>
        rw [isNext, history_finish tripFound, if_pos trips] at member
        exact traced.gaveUpLate index (by simpa using member)

/-- Whatever has happened, the history agrees with the tasks and the context. -/
theorem of_reaches
    {calls : List Call}
    {schedule : Schedule}
    {failFast : Bool}
    (reaches :
      Reaches policy { batch := .start calls schedule limit failFast } course) :
    Traced course := by
  induction reaches with
  | refl =>
      exact start calls schedule limit failFast
  | tail earlier moves inductionHypothesis =>
      exact inductionHypothesis.of_moves moves (Carries.of_reaches earlier).permitted

end Traced

end Course

end Runbook
