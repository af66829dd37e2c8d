import Runbook.Proofs.Batch.Outcomes

namespace Runbook

/-!
# Batches that fail fast

In a batch that fails fast the first call that fails by itself trips the batch, unless the
context ended before from outside.  Then no other call is started: the calls that never
began are skipped on account of the one that tripped the batch, and all others come back
as they finished.
-/

namespace BatchEvent

/-- So far the context goes on and no call has failed by itself. -/
def Undisturbed (history : List BatchEvent) : Prop :=
  (∀ fault, .contextEnded fault ∉ history) ∧
    ∀ index call, .finished index call ∈ history → call.failsItself = false

end BatchEvent

namespace Course

variable {policy : RetryPolicy} {limit : Nat} {calls : List Call} {schedule : Schedule}
  {course next : Course}

/-- While nothing has disturbed a batch its context goes on. -/
theorem Accounted.goesOn_of_undisturbed
    (accounted : Accounted calls course)
    (undisturbed : BatchEvent.Undisturbed course.history) :
    course.ended = none := by
  cases ended : course.ended with
  | none =>
      rfl
  | some fault =>
      rcases accounted.endedFor fault ended with isOutside | ⟨_, tripped⟩
      · exact (undisturbed.1 fault isOutside).elim
      · obtain ⟨index, call, hasFinished, fails⟩ := accounted.tripCause tripped
        rw [undisturbed.2 index call hasFinished] at fails
        cases fails

/-- A batch that fails fast has its context ended by the first failure, and by a failure
only if it is the first. -/
structure Vigilant (course : Course) : Prop where
  undisturbed :
    course.ended = none → BatchEvent.Undisturbed course.history
  tripsFirst :
    ∀ index call earlier later,
      course.history = earlier ++ .finished index call :: later →
      ((∃ rest, later = .tripped index :: rest) ↔
        call.failsItself = true ∧ BatchEvent.Undisturbed earlier)

namespace Vigilant

/-- What a call that finished earlier meets next does not change when the history grows,
unless the growth begins with a trip. -/
private theorem trips_append
    {index : Nat}
    {rest new : List BatchEvent}
    (noTripFirst : ∀ later, new ≠ .tripped index :: later) :
    (∃ later, rest ++ new = .tripped index :: later) ↔
      ∃ later, rest = .tripped index :: later := by
  cases rest with
  | nil =>
      constructor
      · rintro ⟨later, isTrip⟩
        exact (noTripFirst later isTrip).elim
      · rintro ⟨later, isTrip⟩
        cases isTrip
  | cons head others =>
      constructor
      · rintro ⟨later, isTrip⟩
        exact ⟨others, by rw [(List.cons.inj isTrip).1]⟩
      · rintro ⟨later, isTrip⟩
        exact ⟨others ++ new, by rw [(List.cons.inj isTrip).1]; rfl⟩

theorem of_moves
    (vigilant : Vigilant course)
    (accounted : Accounted calls course)
    (failsFast : course.batch.failFast = true)
    (moves : Moves policy course next) :
    Vigilant next := by
  cases affects_of_moves moves with
  | unaffected new sameEnd _ grown admitted =>
      have noTrip (index : Nat) : .tripped index ∉ new :=
        fun member => admitted _ member
      have calm :
          ∀ index call, .finished index call ∈ new →
            course.ended = none → call.failsItself = false := by
        intro index call member goesOn
        have notTripping : course.batch.trips call course.ended = false :=
          admitted _ member
        by_contra fails
        have trips : course.batch.trips call course.ended = true :=
          Batch.trips_iff.mpr
            ⟨failsFast, goesOn, accounted.untripped_of_goesOn goesOn, by
              simpa using fails⟩
        rw [notTripping] at trips
        cases trips
      refine ⟨?_, ?_⟩
      · intro goesOn
        rw [sameEnd] at goesOn
        obtain ⟨noEnd, noFailure⟩ := vigilant.undisturbed goesOn
        rw [grown]
        constructor
        · intro fault member
          rcases List.mem_append.mp member with isEarlier | isNew
          · exact noEnd fault isEarlier
          · exact admitted _ isNew
        · intro index call member
          rcases List.mem_append.mp member with isEarlier | isNew
          · exact noFailure index call isEarlier
          · exact calm index call isNew goesOn
      · intro index call earlier later isSplit
        rw [grown] at isSplit
        rcases History.split_append isSplit with
          ⟨rest, isHistory, isLater⟩ | ⟨between, isEarlier, isNew⟩
        · rw [isLater, trips_append]
          · exact vigilant.tripsFirst index call earlier rest isHistory
          · intro later isTrip
            exact noTrip index (by simp [isTrip])
        · constructor
          · rintro ⟨rest, isTrip⟩
            exact (noTrip index (by simp [isNew, isTrip])).elim
          · rintro ⟨fails, noEnd, noFailure⟩
            rw [isEarlier] at noEnd noFailure
            -- Nothing has happened that ends the context, so this failure would be a trip.
            have goesOn : course.ended = none :=
              accounted.goesOn_of_undisturbed
                ⟨fun fault member => noEnd fault (List.mem_append_left _ member),
                  fun other result member =>
                    noFailure other result (List.mem_append_left _ member)⟩
            rw [calm index call (by simp [isNew]) goesOn] at fails
            cases fails
  | @outside fault ends isNext =>
      rw [isNext]
      refine ⟨fun goesOn => (by cases goesOn), ?_⟩
      intro index call earlier later isSplit
      rcases History.split_append isSplit with
        ⟨rest, isHistory, isLater⟩ | ⟨between, _, isNew⟩
      · rw [isLater, trips_append]
        · exact vigilant.tripsFirst index call earlier rest isHistory
        · intro later isTrip
          cases isTrip
      · have member : .finished index call ∈ [BatchEvent.contextEnded fault] := by
          simp [isNew]
        cases List.mem_singleton.mp member
  | @trips tripping task ending found trips isNext =>
      obtain ⟨_, goesOn, _, fails⟩ := Batch.trips_iff.mp trips
      have grown :
          next.history =
            course.history ++
              [.finished tripping (settled task ending), .tripped tripping] := by
        rw [isNext, history_finish found, if_pos trips]
      refine ⟨?_, ?_⟩
      · intro nextGoesOn
        rw [isNext, ended_finish found, if_pos trips] at nextGoesOn
        cases nextGoesOn
      · intro index call earlier later isSplit
        rw [grown] at isSplit
        rcases History.split_append isSplit with
          ⟨rest, isHistory, isLater⟩ | ⟨between, isEarlier, isNew⟩
        · rw [isLater, trips_append]
          · exact vigilant.tripsFirst index call earlier rest isHistory
          · intro later isTrip
            cases isTrip
        · cases between with
          | nil =>
              obtain ⟨isFinish, isLater⟩ := List.cons.inj isNew
              cases isFinish
              rw [isEarlier, List.append_nil, ← isLater]
              exact ⟨fun _ => ⟨fails, vigilant.undisturbed goesOn⟩, fun _ => ⟨[], rfl⟩⟩
          | cons head others =>
              have member : .finished index call ∈ [BatchEvent.tripped tripping] := by
                rw [(List.cons.inj isNew).2]
                simp
              cases List.mem_singleton.mp member

/-- Whatever has happened, a batch that fails fast is vigilant. -/
theorem of_reaches
    (reaches :
      Reaches policy { batch := .start calls schedule limit true } course) :
    Vigilant course := by
  induction reaches with
  | refl =>
      refine ⟨fun _ => ⟨fun _ member => (by cases member), fun _ _ member =>
        (by cases member)⟩, ?_⟩
      intro index call earlier later isSplit
      simp at isSplit
  | tail earlier moves inductionHypothesis =>
      exact inductionHypothesis.of_moves (Accounted.of_reaches earlier)
        (Carries.of_reaches earlier).sameMode moves

end Vigilant

/-- A batch of these calls fails fast. -/
structure FailsFast (calls : List Call) (course : Course) : Prop where
  /-- A call that finishes trips the batch at once if and only if it fails by itself, and
  so far the context goes on and no other call has failed by itself. -/
  tripsFirst :
    ∀ index call earlier later,
      course.history = earlier ++ .finished index call :: later →
      ((∃ rest, later = .tripped index :: rest) ↔
        call.failsItself = true ∧ BatchEvent.Undisturbed earlier)
  /-- Only a call that has just finished trips the batch. -/
  tripFollows :
    ∀ index,
      (BatchEvent.tripped index).Whenever
        (fun earlier => ∃ before call, earlier = before ++ [.finished index call])
        course.history
  /-- At most one call trips the batch. -/
  tripsOnce :
    course.history.countP BatchEvent.isTrip ≤ 1
  /-- After a trip no call gets a permit and no tool is started. -/
  startsBefore :
    ∀ event : BatchEvent, event.starts = true →
      event.Whenever (fun earlier => ∀ index, .tripped index ∉ earlier) course.history
  /-- In the end, calls that never got a permit are skipped on account of the call that
  tripped the batch. -/
  skipsOthers :
    course.IsOver →
    ∀ (failed index : Nat) (culprit call : Call),
      .tripped failed ∈ course.history →
      calls[failed]? = some culprit →
      calls[index]? = some call →
      .began index ∉ course.history →
      (course.batch.results course.ended)[index]? = some (Batch.skip call culprit.id)
  /-- In the end, the call that tripped the batch has its own fault. -/
  keepsFault :
    course.IsOver →
    ∀ failed, .tripped failed ∈ course.history →
      ∃ result,
        .finished failed result ∈ course.history ∧ result.failsItself = true ∧
          (course.batch.results course.ended)[failed]? = some result
  /-- In the end, calls that have finished are as they finished. -/
  keepsFinished :
    course.IsOver →
    ∀ (index : Nat) (call result : Call),
      calls[index]? = some call →
      .finished index result ∈ course.history →
      (course.batch.results course.ended)[index]? = some result
  /-- In the end, calls that got a permit have finished. -/
  finishesBegun :
    course.IsOver →
    ∀ (index : Nat) (call : Call),
      calls[index]? = some call →
      .began index ∈ course.history →
      ∃ result, .finished index result ∈ course.history
  /-- In a batch that is tripped, calls finish with what their own invocation returned,
  which is a text, a fault of the invocation itself, or that it was cancelled. -/
  finishesOwn :
    ∀ (failed index : Nat) (call result : Call),
      .tripped failed ∈ course.history →
      calls[index]? = some call →
      .finished index result ∈ course.history →
      ∃ ending,
        .invoked index ending ∈ course.history ∧
          result = call.settle (ending.resultOr (Batch.breakdown call.name)) ∧
            ∀ fault, ending = .finished (.error fault) →
              fault.isOwn = true ∨ fault = .cancelled
  /-- If the context ends from outside, no call is skipped, unless it was given so. -/
  skipsNone :
    ∀ (reason : Fault) (index : Nat) (call result : Call),
      .contextEnded reason ∈ course.history →
      calls[index]? = some call →
      (course.batch.results course.ended)[index]? = some result →
      ∀ tool cause,
        result.fault? = some (.skipped tool cause) →
        call.fault? = some (.skipped tool cause)

end Course

namespace Conduct

variable {policy : RetryPolicy} {config : BatchConfig} {calls : List Call}
  {table : Option (List (String × List String))} {limit : Nat} {now : Instant}
  {course : Course}

/-- Calls side by side that do not go on after a failure fail fast, whatever happens and
in whatever order it happens. -/
theorem failsFast_of_reaches
    (stopsOnError : config.continueOnError = false)
    (reaches :
      Reaches policy (start config calls table limit now) (together course)) :
    course.FailsFast calls := by
  obtain ⟨schedule, made, courseReaches⟩ := course_of_reaches reaches
  obtain ⟨_, sameLength, _⟩ := Execution.awaits_scheduleOf made
  rw [stopsOnError] at courseReaches
  have carries := Course.Carries.of_reaches courseReaches
  have traced := Course.Traced.of_reaches courseReaches
  have accounted := Course.Accounted.of_reaches courseReaches
  have vigilant := Course.Vigilant.of_reaches courseReaches
  have resultOf
      (isOver : course.IsOver)
      {index : Nat}
      {call result : Call}
      (given : calls[index]? = some call)
      (hasFinished : .finished index result ∈ course.history) :
      (course.batch.results course.ended)[index]? = some result :=
    Course.result_of_finished carries sameLength traced isOver given hasFinished
  exact {
    tripsFirst := vigilant.tripsFirst
    tripFollows := accounted.tripFollows
    tripsOnce := accounted.tripsOnce
    startsBefore := accounted.startsBefore
    skipsOthers := by
      intro isOver failed index culprit call hasTripped isCulprit given neverBegan
      obtain ⟨tripping, isTripping, tripped⟩ := accounted.tripRecorded failed hasTripped
      have same : tripping = culprit :=
        Option.some.inj (isTripping.symm.trans isCulprit)
      rw [same] at tripped
      exact Course.result_of_not_begun carries sameLength traced isOver tripped given
        neverBegan
    keepsFault := by
      intro isOver failed hasTripped
      obtain ⟨call, given, _⟩ := accounted.tripRecorded failed hasTripped
      obtain ⟨earlier, later, isSplit⟩ := List.append_of_mem hasTripped
      obtain ⟨before, result, isEarlier⟩ :=
        accounted.tripFollows failed earlier later isSplit
      rw [isEarlier, List.append_assoc] at isSplit
      obtain ⟨fails, _⟩ :=
        (vigilant.tripsFirst failed result before _ isSplit).mp ⟨later, rfl⟩
      have hasFinished : .finished failed result ∈ course.history := by
        rw [isSplit]
        simp
      exact ⟨result, hasFinished, fails, resultOf isOver given hasFinished⟩
    keepsFinished := fun isOver _ _ _ given hasFinished =>
      resultOf isOver given hasFinished
    finishesBegun := fun isOver _ _ given hasBegun =>
      Course.finished_of_began carries sameLength traced isOver given hasBegun
    finishesOwn := by
      intro failed index call result hasTripped given hasFinished
      obtain ⟨ending, isInvoked, isSettled, explained⟩ :=
        Course.ending_of_finished carries sameLength traced accounted given hasFinished
      refine ⟨ending, isInvoked, isSettled, ?_⟩
      intro fault met
      rcases explained fault met with isOwn | isOutside | ⟨isCancelled, _⟩
      · exact Or.inl isOwn
      · obtain ⟨_, _, tripped⟩ := accounted.tripRecorded failed hasTripped
        rw [(accounted.outsideEnds fault isOutside).2.2] at tripped
        cases tripped
      · exact Or.inr isCancelled
    skipsNone := by
      intro reason index call result isOutside given isResult tool cause met
      obtain ⟨task, _, found, isCall, _, _⟩ := carries.task_of_call sameLength given
      obtain ⟨outcome, settles, unskipped⟩ :=
        Course.settles_unskipped traced accounted
          (accounted.outsideEnds reason isOutside).2.2 found
      rw [Batch.getElem?_results found, settles, isCall] at isResult
      cases isResult
      rcases Call.fault?_settle met with before | isSkipped
      · exact before
      · exact (unskipped tool cause isSkipped).elim
  }

/-- A call that waits for the permit of the first one is skipped when that one fails. -/
theorem failsFast_of_reaches_second_skipped :
    ∃ course : Course,
      Reaches {} (start { continueOnError := false }
        [⟨"a", "t", .null, none⟩, ⟨"b", "t", .null, none⟩] none 1 0) (together course) ∧
        course.IsOver ∧
          course.FailsFast [⟨"a", "t", .null, none⟩, ⟨"b", "t", .null, none⟩] ∧
            course.batch.results course.ended =
              [⟨"a", "t", .null, some (.error (.toolNotFound "t"))⟩,
                ⟨"b", "t", .null, some (.error (.skipped "t" "'a' failed"))⟩] := by
  have looked :
      Reaches {} (start { continueOnError := false }
        [⟨"a", "t", .null, none⟩, ⟨"b", "t", .null, none⟩] none 1 0)
        (together (Course.look {
          batch := Batch.start [⟨"a", "t", .null, none⟩, ⟨"b", "t", .null, none⟩]
            ⟨[0, 1], [[], []]⟩ 1 true })) :=
    .single (.step (.together (.look rfl)))
  have asked := looked.tail
    (.step (.together (@Course.Step.request _ _ 0 _ rfl rfl rfl (by decide))))
  have askedToo := asked.tail
    (.step (.together (@Course.Step.request _ _ 1 _ rfl rfl rfl (by decide))))
  have begun := askedToo.tail
    (.step (.together (@Course.Step.begin _ _ 0 _ _ rfl rfl rfl .notFound)))
  have failed := begun.tail
    (.step (.together (@Course.Step.finish _ _ 0 _ _ rfl rfl)))
  have gaveUp := failed.tail
    (.step (.together (@Course.Step.giveUp _ _ 1 _ _ rfl (Or.inr rfl) rfl)))
  have stored := gaveUp.tail
    (.step (.together (@Course.Step.collect _ _ 0 _ _ _ rfl rfl)))
  have storedToo := stored.tail
    (.step (.together (@Course.Step.collect _ _ 1 _ _ _ rfl rfl)))
  refine ⟨_, storedToo, ⟨rfl, by decide⟩, failsFast_of_reaches rfl storedToo, ?_⟩
  decide

end Conduct

end Runbook
