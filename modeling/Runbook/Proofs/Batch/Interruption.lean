import Runbook.Proofs.Batch.Concurrency
import Runbook.Proofs.Batch.Invocations
import Runbook.Proofs.Batch.Progress

namespace Runbook

/-!
# Batches whose context ends

A batch that goes on after failures is never tripped, so its context ends from outside, at
any time or not at all: a context above it is cancelled or late, or its own time is up.
Nothing is started from then on.  An invocation under way is
abandoned with the next thing that happens to it, an attempt as well as a rest, without
regard to its tool.  Calls whose invocation had returned come back as it returned, and all
others come back with the end of the context.

A tool may end the context of its own batch.  It does so while it returns, and the history
tells first that the invocation has returned.
-/

namespace Fault

theorem endsContext_iff
    {fault : Fault} :
    fault.endsContext = true ↔ fault = .cancelled ∨ fault = .deadlineExceeded := by
  cases fault <;> simp [endsContext]

end Fault

namespace AttemptOutcome

theorem Fits.eq_interrupted
    {outcome : AttemptOutcome}
    {reason : Fault}
    (fits : outcome.Fits (some reason)) :
    outcome = .interrupted reason := by
  cases outcome with
  | interrupted fault =>
      rw [Option.some.inj fits]
  | _ =>
      cases fits

end AttemptOutcome

namespace Stage

/-- Once its context has ended an invocation is abandoned, whether an attempt or a rest is
under way. -/
theorem Proceeds.eq_ended
    {policy : RetryPolicy}
    {name : String}
    {reason : Fault}
    {stage later : Stage String}
    (endsContext : reason.endsContext = true)
    (proceeds : Proceeds policy name (some reason) stage later) :
    later = .ended (.fault reason) := by
  cases proceeds with
  | @attempted attempt outcome breaksDown fits =>
      have abandoned :
          afterAttempt policy attempt (outcome.ending name) =
            .ended (.fault reason) := by
        rw [fits.eq_interrupted]
        simp [AttemptOutcome.ending, Ending.fault, afterAttempt, endsContext]
      rw [abandoned]
      exact reported_fault endsContext breaksDown
  | rested =>
      rfl

end Stage

open BatchEvent

namespace Course

variable {policy : RetryPolicy} {limit : Nat} {calls : List Call} {schedule : Schedule}
  {course next : Course}

/-- No call trips a batch that goes on after failures. -/
theorem untripped_of_reaches
    (reaches :
      Reaches policy { batch := .start calls schedule limit false } course) :
    course.batch.trippedBy = none := by
  induction reaches with
  | refl =>
      rfl
  | tail earlier moves inductionHypothesis =>
      cases affects_of_moves moves with
      | unaffected _ _ sameTrip _ _ =>
          exact sameTrip.trans inductionHypothesis
      | outside _ isNext =>
          rw [isNext]
          exact inductionHypothesis
      | trips _ trips _ =>
          have failsFast := (Batch.trips_iff.mp trips).1
          rw [(Carries.of_reaches earlier).sameMode] at failsFast
          cases failsFast

/-- What may happen to a task whose context has ended for a reason: nothing is started,
and an invocation returns with the reason. -/
def HappensLate (reason : Fault) : BatchEvent → Prop
  | .began _ => False
  | .attempted _ _ => False
  | .invoked _ ending => ending = .fault reason
  | _ => True

/-- In a context that has ended only late things happen. -/
theorem happensLate_of_moves
    {reason : Fault}
    (moves : Moves policy course next)
    (ended : course.ended = some reason)
    (endsContext : reason.endsContext = true) :
    ∃ new,
      next.history = course.history ++ new ∧ ∀ event ∈ new, HappensLate reason event := by
  cases moves with
  | outside _ =>
      exact ⟨_, rfl, by simp [HappensLate]⟩
  | step step =>
      cases step with
      | look _ =>
          exact ⟨[], (List.append_nil _).symm, by simp⟩
      | collect _ _ =>
          exact ⟨_, rfl, by simp [HappensLate]⟩
      | request _ _ goesOn _ =>
          rw [ended] at goesOn
          cases goesOn
      | giveUp _ _ _ =>
          exact ⟨_, rfl, by simp [HappensLate]⟩
      | begin _ _ goesOn _ =>
          rw [ended] at goesOn
          cases goesOn
      | @proceed index _ _ later _ _ proceeds =>
          rw [ended] at proceeds
          have abandoned := proceeds.eq_ended endsContext
          refine ⟨ofStage index later, by simp [enter], ?_⟩
          rw [abandoned]
          simp [ofStage, HappensLate]
      | @finish index task ending found _ =>
          refine ⟨_, history_finish found ending, ?_⟩
          intro event member
          rcases List.mem_cons.mp member with isFinish | isTrip
          · rw [isFinish]
            trivial
          · split at isTrip
            · rw [List.mem_singleton.mp isTrip]
              trivial
            · cases isTrip

/-- Whatever happens after the context has ended happens late, for some reason of a
context. -/
def LateOnly (history : List BatchEvent) : Prop :=
  ∀ event : BatchEvent,
    event.Whenever
      (fun earlier =>
        ∀ fault, .contextEnded fault ∈ earlier →
          ∃ reason : Fault, reason.endsContext = true ∧ HappensLate reason event)
      history

theorem lateOnly_of_reaches
    (reaches :
      Reaches policy { batch := .start calls schedule limit false } course) :
    LateOnly course.history := by
  induction reaches with
  | refl =>
      exact fun _ => whenever_nil
  | @tail course next earlier moves inductionHypothesis =>
      intro event
      have accounted := Accounted.of_reaches earlier
      cases ended : course.ended with
      | some reason =>
          have endsContext := (Traced.of_reaches earlier).endedByContext reason ended
          obtain ⟨new, grown, late⟩ := happensLate_of_moves moves ended endsContext
          rw [grown]
          apply (inductionHypothesis event).append
          intro before after isNew fault _
          exact ⟨reason, endsContext, late event (by simp [isNew])⟩
      | none =>
          -- The context has not ended before, so at most its end is among what is new.
          have goesOn (fault : Fault) : .contextEnded fault ∉ course.history :=
            fun member => (accounted.outsideEnds fault member).2.1 ended
          cases affects_of_moves moves with
          | unaffected new _ _ grown admitted =>
              rw [grown]
              apply (inductionHypothesis event).append
              intro before after isNew fault member
              rcases List.mem_append.mp member with isEarlier | isBefore
              · exact (goesOn fault isEarlier).elim
              · exact (admitted (.contextEnded fault) (by simp [isNew, isBefore])).elim
          | @outside reason _ isNext =>
              rw [isNext]
              apply (inductionHypothesis event).append
              intro before after isNew fault member
              have isFirst : before = [] := by
                have onlyOne := congrArg List.length isNew
                simp only [List.length_cons, List.length_nil, List.length_append] at onlyOne
                exact List.length_eq_zero_iff.mp (by omega)
              rw [isFirst, List.append_nil] at member
              exact (goesOn fault member).elim
          | trips _ trips _ =>
              have failsFast := (Batch.trips_iff.mp trips).1
              rw [(Carries.of_reaches earlier).sameMode] at failsFast
              cases failsFast

/-- A batch of these calls heeds the end of its context. -/
structure HeedsEnd (policy : RetryPolicy) (calls : List Call) (course : Course) : Prop where
  /-- After the end no call gets to begin and no attempt of a tool is made. -/
  startsBefore :
    ∀ event : BatchEvent, event.starts = true →
      event.Whenever (fun earlier => ∀ fault, .contextEnded fault ∉ earlier) course.history
  /-- After the end, all that can happen to an invocation under way is that it returns with
  the reason of the end, in the middle of an attempt as well as of a rest. -/
  abandons :
    ∀ reason, course.ended = some reason →
      ∀ (index : Nat) (task : BatchTask) (stage later : Stage String),
        course.batch.tasks[index]? = some task →
        task.place = .running stage →
        Stage.Proceeds policy task.call.name course.ended stage later →
        later = .ended (.fault reason)
  /-- So what returns after the end returns with it. -/
  returnsEnd :
    ∀ (index : Nat) (ending : Ending String),
      (BatchEvent.invoked index ending).Whenever
        (fun earlier =>
          ∀ fault, .contextEnded fault ∈ earlier →
            ending = .fault .cancelled ∨ ending = .fault .deadlineExceeded)
        course.history
  /-- The batch comes to a return, in whatever order its tasks take their steps. -/
  concludes :
    (Conduct.together course).Concludes policy
  /-- When it returns, no invocation is under way, and every task that was started is
  over. -/
  leavesNone :
    course.IsOver →
      (Conduct.together course).inside = 0 ∧
        ∀ task ∈ course.batch.tasks, task.place.isActive = false
  /-- Calls whose invocation had returned before the end come back as it returned. -/
  keepsReturned :
    course.IsOver →
    ∀ (fault : Fault) (earlier later : List BatchEvent),
      course.history = earlier ++ .contextEnded fault :: later →
      ∀ (index : Nat) (call : Call) (ending : Ending String),
        calls[index]? = some call →
        .invoked index ending ∈ earlier →
        (course.batch.results course.ended)[index]? =
          some (call.settle (ending.resultOr (Batch.breakdown call.name)))
  /-- All other calls come back with the end of the context. -/
  endsOthers :
    course.IsOver →
    ∀ (fault : Fault) (earlier later : List BatchEvent),
      course.history = earlier ++ .contextEnded fault :: later →
      ∀ (index : Nat) (call : Call),
        calls[index]? = some call →
        (∀ ending, .invoked index ending ∉ earlier) →
        (course.batch.results course.ended)[index]? =
            some (call.settle (.error .cancelled)) ∨
          (course.batch.results course.ended)[index]? =
            some (call.settle (.error .deadlineExceeded))

/-- Once a batch is over whose context ended, a call whose invocation had not returned by
then comes back with a fault of the context. -/
theorem result_of_not_invoked
    (carries : Carries calls schedule limit false course)
    (sameLength : schedule.awaited.length = calls.length)
    (traced : course.Traced)
    (accounted : Accounted calls course)
    (spent : course.Spent)
    (untripped : course.batch.trippedBy = none)
    (late : LateOnly course.history)
    (isOver : course.IsOver)
    {fault : Fault}
    {earlier later : List BatchEvent}
    (isSplit : course.history = earlier ++ .contextEnded fault :: later)
    {index : Nat}
    {call : Call}
    (given : calls[index]? = some call)
    (notBefore : ∀ ending, .invoked index ending ∉ earlier) :
    ∃ reason : Fault, reason.endsContext = true ∧
      (course.batch.results course.ended)[index]? =
        some (call.settle (.error reason)) := by
  by_cases returns : ∃ ending, .invoked index ending ∈ course.history
  · obtain ⟨ending, isInvoked⟩ := returns
    have isLater : .invoked index ending ∈ later := by
      rw [isSplit] at isInvoked
      simpa [notBefore ending] using isInvoked
    obtain ⟨between, rest, isRest⟩ := List.append_of_mem isLater
    have splitThere :
        course.history =
          (earlier ++ .contextEnded fault :: between) ++
            .invoked index ending :: rest := by
      rw [isSplit, isRest]
      simp
    obtain ⟨reason, endsContext, isReason⟩ :=
      late _ _ _ splitThere fault (by simp)
    refine ⟨reason, endsContext, ?_⟩
    rw [result_of_invoked carries sameLength traced spent isOver given isInvoked,
      show ending = .fault reason from isReason]
    rfl
  · obtain ⟨task, _, found, isCall, _, _⟩ := carries.task_of_call sameLength given
    have form := traced.form index task found
    rw [Batch.getElem?_results found, ← isCall]
    rcases isOver.2 task (List.mem_of_getElem? found) with held | isCollected
    · have hasEnded := (accounted.outsideEnds fault (by simp [isSplit])).2.1
      obtain ⟨reason, ended⟩ := Option.ne_none_iff_exists'.mp hasEnded
      have notStored : task.place.isCollected = false := by
        rw [held]
        rfl
      obtain ⟨_, isAnswer⟩ :=
        Batch.answer_of_untripped notStored untripped course.ended
      refine ⟨reason, traced.endedByContext reason ended, ?_⟩
      rw [isAnswer, ended]
      rfl
    · obtain ⟨stored, place⟩ := TaskPlace.isCollected_iff.mp isCollected
      rw [place] at form
      have neverBegan : .began index ∉ ofTask index course.history := by
        intro hasBegun
        obtain ⟨_, _, hasFinished⟩ := form.of_mem_began (Or.inr rfl) hasBegun
        obtain ⟨_, ending, inPart, _⟩ := form.of_mem_finished hasFinished
        exact returns ⟨ending, (mem_ofTask rfl course.history).mp inPart⟩
      obtain ⟨reason, endsContext, isKept⟩ := form.of_not_mem_began neverBegan
      refine ⟨reason, endsContext, ?_⟩
      rw [Batch.answer_of_collected place, isKept, untripped]
      rfl

end Course

namespace Conduct

variable {policy : RetryPolicy} {config : BatchConfig} {calls : List Call}
  {table : Option (List (String × List String))} {limit : Nat} {now : Instant}
  {course : Course}

/-- Calls side by side that go on after failures heed the end of their context, whenever
it comes and whatever else happens. -/
theorem heedsEnd_of_reaches
    (continues : config.continueOnError = true)
    (reaches :
      Reaches policy (start config calls table limit now) (together course)) :
    course.HeedsEnd policy calls := by
  obtain ⟨schedule, made, courseReaches⟩ := course_of_reaches reaches
  obtain ⟨_, sameLength, _⟩ := Execution.awaits_scheduleOf made
  rw [continues] at courseReaches
  have carries := Course.Carries.of_reaches courseReaches
  have traced := Course.Traced.of_reaches courseReaches
  have spent := Course.Spent.of_reaches courseReaches
  have late := Course.lateOnly_of_reaches courseReaches
  exact {
    startsBefore := by
      intro event starts earlier later isSplit fault member
      obtain ⟨reason, _, happens⟩ := late event earlier later isSplit fault member
      cases event with
      | began _ =>
          exact happens
      | attempted _ _ =>
          exact happens
      | _ =>
          cases starts
    abandons := by
      intro reason ended index task stage later _ _ proceeds
      rw [ended] at proceeds
      exact proceeds.eq_ended (traced.endedByContext reason ended)
    returnsEnd := by
      intro index ending earlier later isSplit fault member
      obtain ⟨reason, endsContext, isReason⟩ := late _ earlier later isSplit fault member
      rw [show ending = .fault reason from isReason]
      exact (Fault.endsContext_iff.mp endsContext).imp
        (congrArg Ending.fault) (congrArg Ending.fault)
    concludes := Course.concludes policy carries.permitted (by omega)
    leavesNone := by
      intro isOver
      refine ⟨Course.inside_eq_zero_of_isOver isOver, ?_⟩
      intro task member
      rcases isOver.2 task member with held | isCollected
      · rw [held]
        rfl
      · obtain ⟨_, stored⟩ := TaskPlace.isCollected_iff.mp isCollected
        rw [stored]
        rfl
    keepsReturned := by
      intro isOver fault earlier later isSplit index call ending given isInvoked
      exact Course.result_of_invoked carries sameLength traced spent isOver given
        (by simp [isSplit, isInvoked])
    endsOthers := by
      intro isOver fault earlier later isSplit index call given notBefore
      obtain ⟨reason, endsContext, isResult⟩ :=
        Course.result_of_not_invoked carries sameLength traced
          (Course.Accounted.of_reaches courseReaches) spent
          (Course.untripped_of_reaches courseReaches) late isOver isSplit given notBefore
      rcases Fault.endsContext_iff.mp endsContext with cancelled | exceeded
      · exact Or.inl (by rw [isResult, cancelled])
      · exact Or.inr (by rw [isResult, exceeded])
  }

/-- Of four calls at the deadline the first has returned, the second makes an attempt, the
third rests after one, and the last waits for the second. -/
theorem heedsEnd_of_reaches_deadline :
    ∃ course : Course,
      Reaches {} (start {}
        [⟨"a", "t", .null, none⟩, ⟨"b", "t", .null, none⟩, ⟨"c", "t", .null, none⟩,
          ⟨"d", "t", .null, none⟩]
        (some [("d", ["b"])]) 3 0) (together course) ∧
        course.IsOver ∧
          course.HeedsEnd {}
            [⟨"a", "t", .null, none⟩, ⟨"b", "t", .null, none⟩, ⟨"c", "t", .null, none⟩,
              ⟨"d", "t", .null, none⟩] ∧
            course.batch.results course.ended =
              [⟨"a", "t", .null, some (.ok "done")⟩,
                ⟨"b", "t", .null, some (.error .deadlineExceeded)⟩,
                ⟨"c", "t", .null, some (.error .deadlineExceeded)⟩,
                ⟨"d", "t", .null, some (.error .deadlineExceeded)⟩] := by
  have looked :
      Reaches {} (start {}
        [⟨"a", "t", .null, none⟩, ⟨"b", "t", .null, none⟩, ⟨"c", "t", .null, none⟩,
          ⟨"d", "t", .null, none⟩]
        (some [("d", ["b"])]) 3 0)
        (together (Course.look {
          batch := Batch.start
            [⟨"a", "t", .null, none⟩, ⟨"b", "t", .null, none⟩, ⟨"c", "t", .null, none⟩,
              ⟨"d", "t", .null, none⟩]
            ⟨[0, 1, 2, 3], [[], [], [], ["b"]]⟩ 3 false })) :=
    .single (.step (.together (.look rfl)))
  have asked := looked.tail
    (.step (.together (@Course.Step.request _ _ 0 _ rfl rfl rfl (by decide))))
  have begun := asked.tail
    (.step (.together (@Course.Step.begin _ _ 0 _ _ rfl rfl rfl .admitted)))
  have asked := begun.tail
    (.step (.together (@Course.Step.request _ _ 1 _ rfl rfl rfl (by decide))))
  have begun := asked.tail
    (.step (.together (@Course.Step.begin _ _ 1 _ _ rfl rfl rfl .admitted)))
  have asked := begun.tail
    (.step (.together (@Course.Step.request _ _ 2 _ rfl rfl rfl (by decide))))
  have begun := asked.tail
    (.step (.together (@Course.Step.begin _ _ 2 _ _ rfl rfl rfl .admitted)))
  have answered := begun.tail
    (.step (.together (@Course.Step.proceed _ _ 0 _ _ _ rfl rfl
      (.attempted false (show (AttemptOutcome.text "done").Fits none from rfl)))))
  have failed := answered.tail
    (.step (.together (@Course.Step.proceed _ _ 2 _ _ _ rfl rfl
      (.attempted false (show (AttemptOutcome.failed "busy").Fits none from rfl)))))
  have late := failed.tail
    (.togetherOutside (.first (show Fault.deadlineExceeded.endsContext = true from rfl)))
  have abandoned := late.tail
    (.step (.together (@Course.Step.proceed _ _ 1 _ _ _ rfl rfl
      (.attempted false
        (show (AttemptOutcome.interrupted .deadlineExceeded).Fits
          (some .deadlineExceeded) from rfl)))))
  have abandoned := abandoned.tail
    (.step (.together (@Course.Step.proceed _ _ 2 _ _ _ rfl rfl .rested)))
  have finished := abandoned.tail
    (.step (.together (@Course.Step.finish _ _ 2 _ _ rfl rfl)))
  have finished := finished.tail
    (.step (.together (@Course.Step.finish _ _ 0 _ _ rfl rfl)))
  have finished := finished.tail
    (.step (.together (@Course.Step.finish _ _ 1 _ _ rfl rfl)))
  have stored := finished.tail
    (.step (.together (@Course.Step.collect _ _ 0 _ _ _ rfl rfl)))
  have stored := stored.tail
    (.step (.together (@Course.Step.collect _ _ 1 _ _ _ rfl rfl)))
  have stored := stored.tail
    (.step (.together (@Course.Step.collect _ _ 2 _ _ _ rfl rfl)))
  refine ⟨_, stored, ⟨rfl, by decide⟩, heedsEnd_of_reaches rfl stored, ?_⟩
  decide

end Conduct

end Runbook
