import Runbook.Proofs.Batch.Traces

namespace Runbook

/-!
# Who ends the context of a batch

The context of a batch ends from outside or because a task trips the batch, and the
history tells which of the two it was: never both.  A batch is tripped once at most, right
after a call has finished, and nothing is started afterwards.
-/

namespace BatchEvent

/-- Whether a call begins with its permit, or an attempt of its tool is made. -/
def starts : BatchEvent → Bool
  | began _ => true
  | attempted _ _ => true
  | _ => false

end BatchEvent

namespace Course

variable {policy : RetryPolicy} {limit : Nat} {calls : List Call} {schedule : Schedule}
  {failFast : Bool} {course next : Course}

/-- The history accounts for how the context stands and for who tripped the batch. -/
structure Accounted (calls : List Call) (course : Course) : Prop where
  /-- The context has ended from outside, or it is cancelled by a trip. -/
  endedFor :
    ∀ fault, course.ended = some fault →
      .contextEnded fault ∈ course.history ∨
        (fault = .cancelled ∧ course.batch.trippedBy ≠ none)
  /-- A context that ended from outside has ended, and nobody trips the batch. -/
  outsideEnds :
    ∀ fault, .contextEnded fault ∈ course.history →
      fault.endsContext = true ∧ course.ended ≠ none ∧ course.batch.trippedBy = none
  /-- Whoever trips the batch cancels its context. -/
  tripEnds :
    course.batch.trippedBy ≠ none → course.ended = some .cancelled
  /-- The batch knows the call that tripped it by its id. -/
  tripRecorded :
    ∀ index, .tripped index ∈ course.history →
      ∃ call, calls[index]? = some call ∧ course.batch.trippedBy = some call.id
  /-- A batch that is tripped has a call that failed by itself. -/
  tripCause :
    course.batch.trippedBy ≠ none →
      ∃ index call, .finished index call ∈ course.history ∧ call.failsItself = true
  /-- The faults of invocations are their own or that of the context. -/
  explained :
    ∀ (index : Nat) (fault : Fault),
      .invoked index (.finished (.error fault)) ∈ course.history →
      fault.isOwn = true ∨ .contextEnded fault ∈ course.history ∨
        (fault = .cancelled ∧ course.batch.trippedBy ≠ none)
  tripsOnce :
    course.history.countP BatchEvent.isTrip ≤ 1
  /-- Nothing is started after a trip. -/
  startsBefore :
    ∀ event : BatchEvent, event.starts = true →
      event.Whenever (fun earlier => ∀ index, .tripped index ∉ earlier) course.history
  /-- A trip comes right after the call that trips the batch has finished. -/
  tripFollows :
    ∀ index,
      (BatchEvent.tripped index).Whenever
        (fun earlier => ∃ before call, earlier = before ++ [.finished index call])
        course.history

namespace Accounted

theorem start
    (calls : List Call)
    (schedule : Schedule)
    (limit : Nat)
    (failFast : Bool) :
    Accounted calls { batch := .start calls schedule limit failFast } where
  endedFor := fun _ ended => by cases ended
  outsideEnds := fun _ member => by cases member
  tripEnds := fun tripped => (tripped rfl).elim
  tripRecorded := fun _ member => by cases member
  tripCause := fun tripped => (tripped rfl).elim
  explained := fun _ _ member => by cases member
  tripsOnce := Nat.zero_le 1
  startsBefore := fun _ _ => BatchEvent.whenever_nil
  tripFollows := fun _ => BatchEvent.whenever_nil

/-- While nobody has tripped the batch, the history has no trip. -/
theorem not_mem_tripped
    (accounted : Accounted calls course)
    (untripped : course.batch.trippedBy = none)
    (index : Nat) :
    .tripped index ∉ course.history := by
  intro member
  obtain ⟨call, _, tripped⟩ := accounted.tripRecorded index member
  rw [untripped] at tripped
  cases tripped

/-- While the context goes on, nobody has tripped the batch. -/
theorem untripped_of_goesOn
    (accounted : Accounted calls course)
    (goesOn : course.ended = none) :
    course.batch.trippedBy = none := by
  by_contra tripped
  have cancelled := accounted.tripEnds tripped
  rw [goesOn] at cancelled
  cases cancelled

/-- A move that leaves the context alone is accounted for. -/
private theorem of_unaffected
    (accounted : Accounted calls course)
    {new : List BatchEvent}
    (sameEnd : next.ended = course.ended)
    (sameTrip : next.batch.trippedBy = course.batch.trippedBy)
    (grown : next.history = course.history ++ new)
    (admitted : ∀ event ∈ new, course.Admits event) :
    Accounted calls next := by
  have noTrip (index : Nat) : .tripped index ∉ new :=
    fun member => admitted _ member
  have old {event : BatchEvent} (member : event ∈ course.history) :
      event ∈ next.history := by
    rw [grown]
    exact List.mem_append_left _ member
  refine ⟨?_, ?_, ?_, ?_, ?_, ?_, ?_, ?_, ?_⟩
  · intro fault ended
    rw [sameTrip]
    exact (accounted.endedFor fault (sameEnd.symm.trans ended)).imp_left old
  · intro fault member
    rw [grown] at member
    rw [sameEnd, sameTrip]
    rcases List.mem_append.mp member with isEarlier | isNew
    · exact accounted.outsideEnds fault isEarlier
    · exact (admitted _ isNew).elim
  · rw [sameEnd, sameTrip]
    exact accounted.tripEnds
  · intro index member
    rw [grown] at member
    rw [sameTrip]
    rcases List.mem_append.mp member with isEarlier | isNew
    · exact accounted.tripRecorded index isEarlier
    · exact (noTrip index isNew).elim
  · intro tripped
    rw [sameTrip] at tripped
    obtain ⟨index, call, hasFinished, fails⟩ := accounted.tripCause tripped
    exact ⟨index, call, old hasFinished, fails⟩
  · intro index fault member
    rw [grown] at member
    rw [sameTrip]
    rcases List.mem_append.mp member with isEarlier | isNew
    · exact (accounted.explained index fault isEarlier).imp_right
        (Or.imp_left old)
    · rcases admitted _ isNew fault rfl with isOwn | ended
      · exact Or.inl isOwn
      · exact Or.inr ((accounted.endedFor fault ended).imp_left old)
  · have noneNew : new.countP BatchEvent.isTrip = 0 := by
      rw [List.countP_eq_zero]
      intro event member isTrip
      cases event with
      | tripped index =>
          exact noTrip index member
      | _ =>
          cases isTrip
    rw [grown, List.countP_append, noneNew]
    exact accounted.tripsOnce
  · intro event starts
    rw [grown]
    refine (accounted.startsBefore event starts).append ?_
    intro earlier later isSplit index member
    have goesOn : course.ended = none := by
      have admittedStart := admitted event (by simp [isSplit])
      cases event with
      | began _ =>
          exact admittedStart
      | attempted _ _ =>
          exact admittedStart
      | _ =>
          cases starts
    rcases List.mem_append.mp member with isEarlier | isNew
    · exact accounted.not_mem_tripped (accounted.untripped_of_goesOn goesOn) index
        isEarlier
    · exact noTrip index (by simp [isSplit, isNew])
  · intro index
    rw [grown]
    refine (accounted.tripFollows index).append ?_
    intro earlier later isSplit
    exact (noTrip index (by simp [isSplit])).elim

/-- The end of the context from outside is accounted for. -/
private theorem of_outside
    (accounted : Accounted calls course)
    {fault : Fault}
    (ends : ContextEnds course.ended fault) :
    Accounted calls (course.endContext fault) := by
  have untripped : course.batch.trippedBy = none := by
    by_contra tripped
    rw [accounted.tripEnds tripped] at ends
    cases ends
  have old {event : BatchEvent} (member : event ∈ course.history) :
      event ∈ (course.endContext fault).history :=
    List.mem_append_left _ member
  refine ⟨?_, ?_, ?_, ?_, ?_, ?_, ?_, ?_, ?_⟩
  · intro reason ended
    cases ended
    exact Or.inl (by simp [endContext])
  · intro reason member
    refine ⟨?_, Option.some_ne_none _, untripped⟩
    rcases List.mem_append.mp member with isEarlier | isNew
    · exact (accounted.outsideEnds reason isEarlier).1
    · cases List.mem_singleton.mp isNew
      exact ends.endsContext
  · intro tripped
    exact (tripped untripped).elim
  · intro index member
    exact accounted.tripRecorded index (by simpa [endContext] using member)
  · intro tripped
    exact (tripped untripped).elim
  · intro index met member
    exact (accounted.explained index met (by simpa [endContext] using member)).imp_right
      (Or.imp_left old)
  · simp only [endContext, List.countP_append]
    exact accounted.tripsOnce
  · intro event starts
    refine (accounted.startsBefore event starts).append ?_
    intro earlier later isSplit
    have isEnd : event = .contextEnded fault := by
      have member : event ∈ [BatchEvent.contextEnded fault] := by
        simp [isSplit]
      exact List.mem_singleton.mp member
    rw [isEnd] at starts
    cases starts
  · intro index
    refine (accounted.tripFollows index).append ?_
    intro earlier later isSplit
    have member : .tripped index ∈ [BatchEvent.contextEnded fault] := by
      simp [isSplit]
    cases List.mem_singleton.mp member

/-- A trip is accounted for. -/
private theorem of_trip
    (accounted : Accounted calls course)
    (carries : Carries calls schedule limit failFast course)
    {index : Nat}
    {task : BatchTask}
    {ending : Ending String}
    (found : course.batch.tasks[index]? = some task)
    (trips : course.batch.trips (settled task ending) course.ended = true) :
    Accounted calls (course.finish index task ending) := by
  obtain ⟨_, goesOn, untripped, fails⟩ := Batch.trips_iff.mp trips
  have isEnded : (course.finish index task ending).ended = some .cancelled := by
    rw [ended_finish found, if_pos trips]
  have isTripped :
      (course.finish index task ending).batch.trippedBy = some task.call.id := by
    rw [batch_finish found, if_pos trips]
    refine (Batch.release_frame _).2.2.2.2.trans ?_
    rw [Batch.trippedBy_move]
    simp [settled]
  have grown :
      (course.finish index task ending).history =
        course.history ++ [.finished index (settled task ending), .tripped index] := by
    rw [history_finish found, if_pos trips]
  have notOutside (fault : Fault) : .contextEnded fault ∉ course.history :=
    fun member => (accounted.outsideEnds fault member).2.1 goesOn
  have noTrip (other : Nat) : .tripped other ∉ course.history :=
    accounted.not_mem_tripped untripped other
  refine ⟨?_, ?_, ?_, ?_, ?_, ?_, ?_, ?_, ?_⟩
  · intro fault ended
    have isCancelled := Option.some.inj (isEnded.symm.trans ended)
    exact Or.inr ⟨isCancelled.symm, by simp [isTripped]⟩
  · intro fault member
    rw [grown] at member
    exact (notOutside fault (by simpa using member)).elim
  · intro _
    exact isEnded
  · intro other member
    rw [grown] at member
    rcases List.mem_append.mp member with isEarlier | isNew
    · exact (noTrip other isEarlier).elim
    · have isIndex : other = index := by
        simpa using isNew
      rw [isIndex, isTripped]
      exact ⟨task.call, carries.call_of_task found, rfl⟩
  · intro _
    exact ⟨index, settled task ending, by simp [grown], fails⟩
  · intro other fault member
    rw [grown] at member
    have isEarlier : .invoked other (.finished (.error fault)) ∈ course.history := by
      simpa using member
    rcases accounted.explained other fault isEarlier with isOwn | isOutside | isTrip
    · exact Or.inl isOwn
    · exact (notOutside fault isOutside).elim
    · exact (isTrip.2 untripped).elim
  · have noneBefore : course.history.countP BatchEvent.isTrip = 0 := by
      rw [List.countP_eq_zero]
      intro event member isTrip
      cases event with
      | tripped other =>
          exact noTrip other member
      | _ =>
          cases isTrip
    rw [grown, List.countP_append, noneBefore]
    simp [BatchEvent.isTrip]
  · intro event starts
    rw [grown]
    refine (accounted.startsBefore event starts).append ?_
    intro earlier later isSplit
    have member :
        event ∈ [.finished index (settled task ending), BatchEvent.tripped index] := by
      simp [isSplit]
    rcases List.mem_cons.mp member with isFinish | isTrip
    · rw [isFinish] at starts
      cases starts
    · rw [List.mem_singleton.mp isTrip] at starts
      cases starts
  · intro other
    rw [grown]
    refine (accounted.tripFollows other).append ?_
    intro earlier later isSplit
    obtain ⟨isFinish, isRest⟩ :
        earlier = [.finished index (settled task ending)] ∧ other = index := by
      cases earlier with
      | nil =>
          cases (List.cons.inj isSplit).1
      | cons head rest =>
          obtain ⟨isHead, isTail⟩ := List.cons.inj isSplit
          cases rest with
          | nil =>
              obtain ⟨isTrip, _⟩ := List.cons.inj isTail
              cases isTrip
              exact ⟨by rw [isHead], rfl⟩
          | cons second others =>
              have tooLong := congrArg List.length isTail
              simp at tooLong
    rw [isFinish, isRest]
    exact ⟨course.history, settled task ending, rfl⟩

theorem of_moves
    (accounted : Accounted calls course)
    (carries : Carries calls schedule limit failFast course)
    (moves : Moves policy course next) :
    Accounted calls next := by
  cases affects_of_moves moves with
  | unaffected _ sameEnd sameTrip grown admitted =>
      exact accounted.of_unaffected sameEnd sameTrip grown admitted
  | outside ends isNext =>
      rw [isNext]
      exact accounted.of_outside ends
  | trips found trips isNext =>
      rw [isNext]
      exact accounted.of_trip carries found trips

/-- Whatever has happened is accounted for. -/
theorem of_reaches
    (reaches :
      Reaches policy { batch := .start calls schedule limit failFast } course) :
    Accounted calls course := by
  induction reaches with
  | refl =>
      exact start calls schedule limit failFast
  | tail earlier moves inductionHypothesis =>
      exact inductionHypothesis.of_moves (Carries.of_reaches earlier) moves

end Accounted

end Course

end Runbook
