import Runbook.Proofs.Batch.Tripping

namespace Runbook

/-!
# What calls come back as

Once nothing is under way any more, the answer for a call can be read off the history of
its task: a call that finished comes back as it finished, and a call that never began as
it gave up or was left behind.
-/

namespace Call

/-- A settled call has the fault that it was settled with, or the one that it had. -/
theorem fault?_settle
    {call : Call}
    {outcome : Except Fault String}
    {fault : Fault}
    (met : (call.settle outcome).fault? = some fault) :
    call.fault? = some fault ∨ outcome = .error fault := by
  cases state : call.outcome with
  | some earlier =>
      have same : call.settle outcome = call := by
        simp [settle, state]
      rw [same] at met
      exact Or.inl met
  | none =>
      have settled : call.settle outcome = { call with outcome := some outcome } := by
        simp [settle, state]
      rw [settled] at met
      cases outcome with
      | ok text =>
          cases met
      | error reason =>
          cases met
          exact Or.inr rfl

end Call

namespace Batch

/-- A call that gave up with the context of a tripped batch is skipped. -/
theorem keep_of_gaveUp
    (failed : String)
    (given : Call)
    {fault : Fault}
    (endsContext : fault.endsContext = true) :
    keep (some failed) given (given.settle (.error fault)) false = skip given failed := by
  cases state : given.outcome with
  | some earlier =>
      have settled (outcome : Except Fault String) : given.settle outcome = given := by
        simp [Call.settle, state]
      simp only [keep, skip, settled]
      split
      · split <;> rfl
      · rfl
  | none =>
      have met : (given.settle (.error fault)).fault? = some fault := by
        simp [Call.settle, Call.fault?, state]
      simp [keep, met, endsContext]

theorem answer_of_collected
    {batch : Batch}
    {task : BatchTask}
    {call : Call}
    (stored : task.place = .collected call)
    (ended : Option Fault) :
    batch.answer ended task = call := by
  simp [answer, stored]

/-- The answer for a call that was never let go in a tripped batch is that it is
skipped. -/
theorem answer_of_held
    {batch : Batch}
    {task : BatchTask}
    {failed : String}
    (held : task.place = .held)
    (tripped : batch.trippedBy = some failed)
    (ended : Option Fault) :
    batch.answer ended task = skip task.call failed := by
  simp [answer, held, tripped]

/-- The answer for a call that is not stored in a batch that nobody tripped: the reason
for which the context ended, if it has. -/
theorem answer_of_untripped
    {batch : Batch}
    {task : BatchTask}
    (notStored : task.place.isCollected = false)
    (untripped : batch.trippedBy = none)
    (ended : Option Fault) :
    ∃ reason,
      batch.answer ended task =
        task.call.settle (.error (ended.getD (.internal reason))) := by
  unfold answer
  split
  case h_1 call stored =>
    rw [stored] at notStored
    cases notStored
  case h_2 failed tripped _ =>
    rw [untripped] at tripped
    cases tripped
  case h_3 =>
    exact ⟨_, rfl⟩

theorem getElem?_results
    {batch : Batch}
    {index : Nat}
    {task : BatchTask}
    (found : batch.tasks[index]? = some task)
    (ended : Option Fault) :
    (batch.results ended)[index]? = some (batch.answer ended task) := by
  simp [results, found]

end Batch

namespace Course

variable {policy : RetryPolicy} {limit : Nat} {calls : List Call} {schedule : Schedule}
  {failFast : Bool} {course : Course}

/-- Once a batch is over, a call that finished is stored as it finished. -/
theorem result_of_finished
    (carries : Carries calls schedule limit failFast course)
    (sameLength : schedule.awaited.length = calls.length)
    (traced : course.Traced)
    (isOver : course.IsOver)
    {index : Nat}
    {call result : Call}
    (given : calls[index]? = some call)
    (hasFinished : .finished index result ∈ course.history) :
    (course.batch.results course.ended)[index]? = some result := by
  obtain ⟨task, _, found, _, _, _⟩ := carries.task_of_call sameLength given
  have form := traced.form index task found
  obtain ⟨returned | stored, _⟩ :=
    form.of_mem_finished ((BatchEvent.mem_ofTask rfl course.history).mpr hasFinished)
  · rcases isOver.2 task (List.mem_of_getElem? found) with held | isCollected
    · rw [returned] at held
      cases held
    · rw [returned] at isCollected
      cases isCollected
  · rw [Batch.getElem?_results found, Batch.answer_of_collected stored]

/-- Once a batch is over, a call that began has finished. -/
theorem finished_of_began
    (carries : Carries calls schedule limit failFast course)
    (sameLength : schedule.awaited.length = calls.length)
    (traced : course.Traced)
    (isOver : course.IsOver)
    {index : Nat}
    {call : Call}
    (given : calls[index]? = some call)
    (hasBegun : .began index ∈ course.history) :
    ∃ result, .finished index result ∈ course.history := by
  obtain ⟨task, _, found, _, _, _⟩ := carries.task_of_call sameLength given
  have form := traced.form index task found
  obtain ⟨result, _, hasFinished⟩ :=
    form.of_mem_began (isOver.2 task (List.mem_of_getElem? found))
      ((BatchEvent.mem_ofTask rfl course.history).mpr hasBegun)
  exact ⟨result, (BatchEvent.mem_ofTask rfl course.history).mp hasFinished⟩

/-- Once a tripped batch is over, a call that never began is skipped. -/
theorem result_of_not_begun
    (carries : Carries calls schedule limit failFast course)
    (sameLength : schedule.awaited.length = calls.length)
    (traced : course.Traced)
    (isOver : course.IsOver)
    {failed : String}
    (tripped : course.batch.trippedBy = some failed)
    {index : Nat}
    {call : Call}
    (given : calls[index]? = some call)
    (neverBegan : .began index ∉ course.history) :
    (course.batch.results course.ended)[index]? = some (Batch.skip call failed) := by
  obtain ⟨task, _, found, isCall, _, _⟩ := carries.task_of_call sameLength given
  rw [Batch.getElem?_results found, ← isCall]
  rcases isOver.2 task (List.mem_of_getElem? found) with held | isCollected
  · rw [Batch.answer_of_held held tripped]
  · obtain ⟨stored, place⟩ := TaskPlace.isCollected_iff.mp isCollected
    have form := traced.form index task found
    rw [place] at form
    have neverInPart : .began index ∉ BatchEvent.ofTask index course.history :=
      fun member => neverBegan ((BatchEvent.mem_ofTask rfl course.history).mp member)
    obtain ⟨fault, endsContext, isKept⟩ := form.of_not_mem_began neverInPart
    rw [Batch.answer_of_collected place, isKept, tripped,
      Batch.keep_of_gaveUp failed task.call endsContext]

/-- A call finishes with what its own invocation returned, and if that is a fault then it
is the invocation's own or one of the context. -/
theorem ending_of_finished
    (carries : Carries calls schedule limit failFast course)
    (sameLength : schedule.awaited.length = calls.length)
    (traced : course.Traced)
    (accounted : Accounted calls course)
    {index : Nat}
    {call result : Call}
    (given : calls[index]? = some call)
    (hasFinished : .finished index result ∈ course.history) :
    ∃ ending,
      .invoked index ending ∈ course.history ∧
        result = call.settle (ending.resultOr (Batch.breakdown call.name)) ∧
          ∀ fault, ending = .finished (.error fault) →
            fault.isOwn = true ∨ .contextEnded fault ∈ course.history ∨
              (fault = .cancelled ∧ course.batch.trippedBy ≠ none) := by
  obtain ⟨task, _, found, isCall, _, _⟩ := carries.task_of_call sameLength given
  have form := traced.form index task found
  obtain ⟨_, ending, inPart, isSettled⟩ :=
    form.of_mem_finished ((BatchEvent.mem_ofTask rfl course.history).mpr hasFinished)
  have isInvoked : .invoked index ending ∈ course.history :=
    (BatchEvent.mem_ofTask rfl course.history).mp inPart
  rw [isCall] at isSettled
  refine ⟨ending, isInvoked, isSettled, ?_⟩
  intro fault met
  rw [met] at isInvoked
  exact accounted.explained index fault isInvoked

/-- A fault of an invocation or of a context is not that a call is skipped. -/
private theorem not_skipped
    {fault : Fault}
    (kind : fault.isOwn = true ∨ fault.endsContext = true)
    (tool cause : String) :
    fault ≠ .skipped tool cause := by
  intro isSkipped
  rw [isSkipped] at kind
  rcases kind with isOwn | endsContext
  · cases isOwn
  · cases endsContext

/-- What is stored of a call in a batch that nobody has tripped: the call, settled with
anything but that it is skipped. -/
theorem settles_unskipped
    (traced : course.Traced)
    (accounted : Accounted calls course)
    (untripped : course.batch.trippedBy = none)
    {index : Nat}
    {task : BatchTask}
    (found : course.batch.tasks[index]? = some task) :
    ∃ outcome,
      course.batch.answer course.ended task = task.call.settle outcome ∧
        ∀ tool cause, outcome ≠ .error (.skipped tool cause) := by
  have form := traced.form index task found
  rw [untripped] at form
  by_cases isCollected : task.place.isCollected = true
  · obtain ⟨call, place⟩ := TaskPlace.isCollected_iff.mp isCollected
    rw [place] at form
    rw [Batch.answer_of_collected place]
    by_cases hasBegun : .began index ∈ BatchEvent.ofTask index course.history
    · obtain ⟨result, isResult, hasFinished⟩ := form.of_mem_began (Or.inr rfl) hasBegun
      obtain ⟨_, ending, inPart, isSettled⟩ := form.of_mem_finished hasFinished
      cases isResult
      refine ⟨_, isSettled, ?_⟩
      intro tool cause isSkipped
      cases ending with
      | brokeDown =>
          cases isSkipped
      | finished outcome =>
          have isInvoked :
              .invoked index (.finished (.error (.skipped tool cause))) ∈
                course.history := by
            rw [← show outcome = .error (.skipped tool cause) from isSkipped]
            exact (BatchEvent.mem_ofTask rfl course.history).mp inPart
          rcases accounted.explained index _ isInvoked with
            isOwn | isOutside | ⟨isCancelled, _⟩
          · exact not_skipped (Or.inl isOwn) tool cause rfl
          · exact not_skipped (Or.inr (accounted.outsideEnds _ isOutside).1)
              tool cause rfl
          · cases isCancelled
    · obtain ⟨fault, endsContext, isKept⟩ := form.of_not_mem_began hasBegun
      refine ⟨.error fault, by rw [isKept]; rfl, ?_⟩
      intro tool cause isSkipped
      cases isSkipped
      exact not_skipped (Or.inr endsContext) tool cause rfl
  · obtain ⟨reason, isAnswer⟩ :=
      Batch.answer_of_untripped (Bool.eq_false_iff.mpr isCollected) untripped course.ended
    refine ⟨_, isAnswer, ?_⟩
    intro tool cause isSkipped
    cases ended : course.ended with
    | none =>
        simp [ended] at isSkipped
    | some fault =>
        have same : fault = .skipped tool cause := by
          simpa [ended] using isSkipped
        exact not_skipped (Or.inr (traced.endedByContext fault ended)) tool cause same

end Course

end Runbook
