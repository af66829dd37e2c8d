import Runbook.Proofs.Batch.Outcomes

namespace Runbook

/-!
# Calls are invoked once

A task begins its call once and its invocation returns once.  Where the task is tells how
often either may still happen, and each move of the task uses up what it adds to the
history.
-/

namespace BatchEvent

/-- The endings with which the invocation of a task has returned. -/
def endingsOf (index : Nat) (history : List BatchEvent) : List (Ending String) :=
  history.filterMap fun
    | .invoked other ending => if other = index then some ending else none
    | _ => none

theorem mem_endingsOf
    {index : Nat}
    {ending : Ending String}
    {history : List BatchEvent} :
    ending ∈ endingsOf index history ↔ .invoked index ending ∈ history := by
  simp only [endingsOf, List.mem_filterMap]
  constructor
  · rintro ⟨event, member, isEnding⟩
    cases event with
    | invoked other found =>
        simp only [Option.ite_none_right_eq_some, Option.some.injEq] at isEnding
        obtain ⟨sameIndex, sameEnding⟩ := isEnding
        rw [← sameIndex, ← sameEnding]
        exact member
    | _ =>
        cases isEnding
  · intro member
    exact ⟨_, member, by simp⟩

@[simp] theorem endingsOf_append
    (index : Nat)
    (first second : List BatchEvent) :
    endingsOf index (first ++ second) = endingsOf index first ++ endingsOf index second := by
  simp [endingsOf]

theorem endingsOf_ofTask
    (index : Nat)
    (history : List BatchEvent) :
    endingsOf index (ofTask index history) = endingsOf index history := by
  induction history with
  | nil =>
      rfl
  | cons event rest inductionHypothesis =>
      rw [ofTask_cons]
      split
      case isTrue own =>
        simp only [endingsOf, List.filterMap_cons] at inductionHypothesis ⊢
        rw [inductionHypothesis]
      case isFalse foreign =>
        rw [inductionHypothesis]
        cases event with
        | invoked other ending =>
            have different : other ≠ index := by
              simpa [task?] using foreign
            simp [endingsOf, different]
        | _ =>
            rfl

theorem count_began_ofTask
    (index : Nat)
    (history : List BatchEvent) :
    (ofTask index history).count (began index) = history.count (began index) :=
  List.count_filter (by simp [task?])

end BatchEvent

open BatchEvent

namespace TaskPlace

/-- How often a task at a place may still begin its call. -/
def beginningsLeft : TaskPlace → Nat
  | held => 1
  | queued => 1
  | granted => 1
  | _ => 0

/-- How often the invocation of a task at a place may still return. -/
def endingsLeft : TaskPlace → Nat
  | held => 1
  | queued => 1
  | granted => 1
  | running (.ended _) => 0
  | running _ => 1
  | _ => 0

end TaskPlace

namespace Stage

theorem endingsOf_ofStage
    (index : Nat)
    (stage : Stage String) :
    (endingsOf index (ofStage index stage)).length +
      (TaskPlace.running stage).endingsLeft = 1 := by
  cases stage with
  | attempting attempt =>
      rfl
  | resting attempt =>
      rfl
  | ended ending =>
      simp [ofStage, endingsOf, TaskPlace.endingsLeft]

theorem count_began_ofStage
    (index : Nat)
    (stage : Stage String) :
    (ofStage index stage).count (began index) = 0 := by
  cases stage <;> simp [ofStage]

/-- Only an invocation that has not returned goes on. -/
theorem Proceeds.endingsLeft
    {policy : RetryPolicy}
    {name : String}
    {ended : Option Fault}
    {stage later : Stage String}
    (proceeds : Proceeds policy name ended stage later) :
    (TaskPlace.running stage).endingsLeft = 1 := by
  cases proceeds with
  | attempted _ _ =>
      rfl
  | rested =>
      rfl

end Stage

/-- A task whose invocation has returned has begun. -/
theorem TaskForm.mem_began_of_mem_invoked
    {trippedBy : Option String}
    {index : Nat}
    {given : Call}
    {place : TaskPlace}
    {events : List BatchEvent}
    {ending : Ending String}
    (form : TaskForm trippedBy index given place events)
    (member : .invoked index ending ∈ events) :
    .began index ∈ events := by
  induction form with
  | held =>
      cases member
  | queued =>
      cases member
  | granted =>
      cases member
  | running underway =>
      exact underway.mem_began
  | finished underway _ _ =>
      exact List.mem_append_left _ underway.mem_began
  | gaveUp _ =>
      simp at member
  | collected _ inductionHypothesis =>
      exact List.mem_append_left _ (inductionHypothesis (by simpa using member))

namespace TaskMoves

variable {policy : RetryPolicy} {course next : Course} {index : Nat} {task : BatchTask}
  {place : TaskPlace} {own : List BatchEvent}

private theorem closing_frame
    (index : Nat)
    (call : Call)
    (trips : Bool) :
    (endingsOf index
        (BatchEvent.finished index call :: if trips then [tripped index] else [])).length = 0 ∧
      (BatchEvent.finished index call :: if trips then [tripped index] else []).count
        (BatchEvent.began index) = 0 := by
  cases trips <;> simp [endingsOf]

theorem endingsLeft_le
    (moves : TaskMoves policy course next index task place own) :
    (endingsOf index own).length + place.endingsLeft ≤ task.place.endingsLeft := by
  cases moves with
  | stays =>
      simp [endingsOf]
  | started held _ _ =>
      simp [held, endingsOf, TaskPlace.endingsLeft]
  | granted queued =>
      simp [queued, endingsOf, TaskPlace.endingsLeft]
  | gaveUp _ _ =>
      simp [endingsOf, TaskPlace.endingsLeft]
  | @began stage granted _ _ =>
      have left : task.place.endingsLeft = 1 := by
        rw [granted]
        rfl
      rw [left]
      exact Nat.le_of_eq (Stage.endingsOf_ofStage index stage)
  | @proceeded stage later running proceeds =>
      rw [running, proceeds.endingsLeft]
      exact Nat.le_of_eq (Stage.endingsOf_ofStage index later)
  | finished _ =>
      simp [(closing_frame index _ _).1, TaskPlace.endingsLeft]
  | collected _ =>
      simp [endingsOf, TaskPlace.endingsLeft]

theorem beginningsLeft_le
    (moves : TaskMoves policy course next index task place own) :
    own.count (BatchEvent.began index) + place.beginningsLeft ≤ task.place.beginningsLeft := by
  cases moves with
  | stays =>
      simp
  | started held _ _ =>
      simp [held, TaskPlace.beginningsLeft]
  | granted queued =>
      simp [queued, TaskPlace.beginningsLeft]
  | gaveUp _ _ =>
      simp [TaskPlace.beginningsLeft]
  | began granted _ _ =>
      simp [granted, Stage.count_began_ofStage, TaskPlace.beginningsLeft]
  | proceeded _ _ =>
      simp [Stage.count_began_ofStage, TaskPlace.beginningsLeft]
  | finished _ =>
      simp [(closing_frame index _ _).2, TaskPlace.beginningsLeft]
  | collected _ =>
      simp [TaskPlace.beginningsLeft]

end TaskMoves

namespace Course

variable {policy : RetryPolicy} {limit : Nat} {calls : List Call} {schedule : Schedule}
  {failFast : Bool} {course next : Course}

/-- The tasks have begun and their invocations have returned no more often than once. -/
structure Spent (course : Course) : Prop where
  beginnings :
    ∀ (index : Nat) (task : BatchTask),
      course.batch.tasks[index]? = some task →
      course.history.count (began index) + task.place.beginningsLeft ≤ 1
  endings :
    ∀ (index : Nat) (task : BatchTask),
      course.batch.tasks[index]? = some task →
      (endingsOf index course.history).length + task.place.endingsLeft ≤ 1

namespace Spent

theorem of_moves
    (spent : Spent course)
    (moves : Moves policy course next)
    (permitted : course.batch.Permitted limit) :
    Spent next := by
  refine ⟨?_, ?_⟩
  · intro index later laterFound
    obtain ⟨task, own, found, _, _, taskMoves, part⟩ :=
      origin_of_moves moves permitted laterFound
    have before := spent.beginnings index task found
    have used := taskMoves.beginningsLeft_le
    rw [← count_began_ofTask, part, List.count_append, count_began_ofTask]
    omega
  · intro index later laterFound
    obtain ⟨task, own, found, _, _, taskMoves, part⟩ :=
      origin_of_moves moves permitted laterFound
    have before := spent.endings index task found
    have used := taskMoves.endingsLeft_le
    rw [← endingsOf_ofTask, part, endingsOf_append, endingsOf_ofTask, List.length_append]
    omega

theorem of_reaches
    (reaches :
      Reaches policy { batch := .start calls schedule limit failFast } course) :
    Spent course := by
  induction reaches with
  | refl =>
      refine ⟨?_, ?_⟩
      · intro index task found
        obtain ⟨entry, _, isTask⟩ := List.mem_map.mp (List.mem_of_getElem? found)
        rw [← isTask]
        exact Nat.le_refl 1
      · intro index task found
        obtain ⟨entry, _, isTask⟩ := List.mem_map.mp (List.mem_of_getElem? found)
        rw [← isTask]
        exact Nat.le_refl 1
  | tail earlier moves inductionHypothesis =>
      exact inductionHypothesis.of_moves moves (Carries.of_reaches earlier).permitted

/-- An invocation that has returned has returned with one ending. -/
theorem endingsOf_eq
    (spent : Spent course)
    {index : Nat}
    {task : BatchTask}
    {ending : Ending String}
    (found : course.batch.tasks[index]? = some task)
    (isInvoked : .invoked index ending ∈ course.history) :
    endingsOf index course.history = [ending] := by
  have member := mem_endingsOf.mpr isInvoked
  have atMostOne := spent.endings index task found
  match shape : endingsOf index course.history, member with
  | [only], member =>
      rw [List.mem_singleton.mp member]
  | first :: second :: others, _ =>
      rw [shape, List.length_cons, List.length_cons] at atMostOne
      omega

end Spent

/-- Once a batch is over, a call whose invocation has returned comes back as it
returned. -/
theorem result_of_invoked
    (carries : Carries calls schedule limit failFast course)
    (sameLength : schedule.awaited.length = calls.length)
    (traced : course.Traced)
    (spent : course.Spent)
    (isOver : course.IsOver)
    {index : Nat}
    {call : Call}
    {ending : Ending String}
    (given : calls[index]? = some call)
    (isInvoked : .invoked index ending ∈ course.history) :
    (course.batch.results course.ended)[index]? =
      some (call.settle (ending.resultOr (Batch.breakdown call.name))) := by
  obtain ⟨task, _, found, isCall, _, _⟩ := carries.task_of_call sameLength given
  have form := traced.form index task found
  obtain ⟨result, stored, hasFinished⟩ :=
    form.of_mem_began (isOver.2 task (List.mem_of_getElem? found))
      (form.mem_began_of_mem_invoked ((mem_ofTask rfl course.history).mpr isInvoked))
  obtain ⟨_, other, inPart, isSettled⟩ := form.of_mem_finished hasFinished
  have otherInvoked := (mem_ofTask rfl course.history).mp inPart
  have sameEnding : [ending] = [other] :=
    (spent.endingsOf_eq found isInvoked).symm.trans (spent.endingsOf_eq found otherInvoked)
  rw [Batch.getElem?_results found, Batch.answer_of_collected stored, isSettled,
    isCall, List.singleton_inj.mp sameEnding]

end Course

end Runbook
