import Runbook.Proofs.Batch.Invocations
import Runbook.Proofs.Batch.Progress
import Runbook.Proofs.Batch.Readiness
import Runbook.Proofs.Dependency.Table

namespace Runbook

/-!
# Calls that are carried out to the end

While the context goes on and failures do not stop the batch, a task is left in the hold
only on account of another one that is left there.  Without cycles that cannot be, so once
nothing is under way any more every call is stored.  Each has then been invoked once, and
its place holds what its invocation returned.
-/

open BatchEvent

namespace Course

variable {policy : RetryPolicy} {limit : Nat} {calls : List Call} {schedule : Schedule}
  {course next : Course}

theorem goesOn_of_step
    (step : Step policy course next)
    (lenient : course.batch.failFast = false)
    (goesOn : course.ended = none) :
    next.ended = none := by
  cases step with
  | @finish index task ending found _ =>
      have notTripping : ¬ course.batch.trips (settled task ending) course.ended = true := by
        intro trips
        rw [(Batch.trips_iff.mp trips).1] at lenient
        cases lenient
      rw [ended_finish found, if_neg notTripping]
      exact goesOn
  | _ =>
      exact goesOn

/-- Once nothing is under way any more in a context that goes on, every call is stored. -/
theorem isStored_of_isOver
    {table : List (String × List String)}
    (acyclic : Dependency.Acyclic table)
    (carries : Carries calls schedule limit false course)
    (sameLength : schedule.awaited.length = calls.length)
    (inOrder : course.InOrder calls table)
    (isOver : course.IsOver)
    (goesOn : course.ended = none)
    {index : Nat}
    {call : Call}
    (given : calls[index]? = some call) :
    ∃ result, course.batch.place? index = some (.collected result) := by
  refine acyclic.forall_calls (motive := fun index =>
    ∃ result, course.batch.place? index = some (.collected result)) ?_ given
  intro index call given requiredStored
  obtain ⟨task, _, found, _, _, _⟩ := carries.task_of_call sameLength given
  rcases isOver.2 task (List.mem_of_getElem? found) with held | isCollected
  · obtain ⟨other, required, isRequired, listed, notStored⟩ :=
      inOrder.prompt isOver.1 goesOn index call given (by simp [Batch.place?, found, held])
    obtain ⟨result, stored⟩ := requiredStored other required isRequired listed
    exact (notStored result stored).elim
  · obtain ⟨result, stored⟩ := TaskPlace.isCollected_iff.mp isCollected
    exact ⟨result, by simp [Batch.place?, found, stored]⟩

/-- In a context that goes on, a call that is stored has been invoked. -/
theorem invoked_of_stored
    (traced : course.Traced)
    (goesOn : course.ended = none)
    {index : Nat}
    {result : Call}
    (placed : course.batch.place? index = some (.collected result)) :
    .began index ∈ course.history ∧ ∃ ending, .invoked index ending ∈ course.history := by
  obtain ⟨task, found, stored⟩ := Option.map_eq_some_iff.mp placed
  have form := traced.form index task found
  rw [stored] at form
  rcases form.finished_or_gaveUp with hasFinished | hasGivenUp
  · obtain ⟨_, ending, inPart, _⟩ := form.of_mem_finished hasFinished
    exact ⟨(mem_ofTask rfl course.history).mp (form.mem_began_of_mem_invoked inPart),
      ending, (mem_ofTask rfl course.history).mp inPart⟩
  · have member := (mem_ofTask rfl course.history).mp hasGivenUp
    exact (traced.gaveUpLate index member goesOn).elim

end Course

namespace Lone

variable {policy : RetryPolicy} {lone next : Lone} {history : List BatchEvent}

/-- What a step of a lone call tells, told as of the first task. -/
def tells (lone next : Lone) : List BatchEvent :=
  match lone.stage, next.stage with
  | none, some stage => .began 0 :: ofStage 0 stage
  | some _, some stage => ofStage 0 stage
  | _, none => []

/-- A history tells of a lone call that it was invoked once, in a context that goes on. -/
structure Told (lone : Lone) (history : List BatchEvent) : Prop where
  goesOn :
    lone.ended = none
  notBegun :
    lone.stage = none → history = []
  begun :
    ∀ stage, lone.stage = some stage →
      stage.Agrees none ∧ history.count (.began 0) = 1 ∧
        (endingsOf 0 history).length + (TaskPlace.running stage).endingsLeft = 1
  returned :
    ∀ ending, lone.stage = some (.ended ending) → .invoked 0 ending ∈ history

theorem Told.of_step
    (told : lone.Told history)
    (step : Step policy lone next) :
    next.Told (history ++ lone.tells next) := by
  have tellsEnding :
      ∀ ending, (.invoked 0 ending : BatchEvent) ∈ ofStage 0 (.ended ending) :=
    fun ending => List.mem_singleton.mpr rfl
  cases step with
  | @begin stage notBegun opens =>
      have isNew :
          history ++ lone.tells { lone with stage := some stage } =
            .began 0 :: ofStage 0 stage := by
        rw [told.notBegun notBegun]
        simp [tells, notBegun]
      rw [isNew]
      refine ⟨told.goesOn, by simp, ?_, ?_⟩
      · intro later isLater
        cases isLater
        have agrees := opens.agrees
        rw [told.goesOn] at agrees
        refine ⟨agrees, ?_, ?_⟩
        · rw [List.count_cons_self, Stage.count_began_ofStage]
        · exact Stage.endingsOf_ofStage 0 stage
      · intro ending isEnded
        cases isEnded
        exact List.mem_cons_of_mem _ (tellsEnding ending)
  | @proceed before stage underway proceeds =>
      have isNew :
          history ++ lone.tells { lone with stage := some stage } =
            history ++ ofStage 0 stage := by
        simp [tells, underway]
      rw [isNew]
      obtain ⟨_, begunOnce, endings⟩ := told.begun before underway
      refine ⟨told.goesOn, by simp, ?_, ?_⟩
      · intro later isLater
        cases isLater
        have agrees := proceeds.agrees
        rw [told.goesOn] at agrees
        refine ⟨agrees, ?_, ?_⟩
        · rw [List.count_append, Stage.count_began_ofStage, begunOnce]
        · have afterwards := Stage.endingsOf_ofStage 0 stage
          have goesOn := proceeds.endingsLeft
          rw [endingsOf_append, List.length_append]
          omega
      · intro ending isEnded
        cases isEnded
        exact List.mem_append_right _ (tellsEnding ending)

end Lone

namespace Conduct

variable {policy : RetryPolicy} {config : BatchConfig} {calls : List Call}
  {table : Option (List (String × List String))} {limit : Nat} {now : Instant}

/-- What carrying out calls comes to while its context goes on, and what has happened on
the way. -/
inductive Unfolds (policy : RetryPolicy) (first : Conduct) :
    Conduct → List BatchEvent → Prop where
  | here :
      Unfolds policy first first []
  | alone {lone next : Lone} {history : List BatchEvent} :
      Unfolds policy first (alone lone) history →
      Lone.Step policy lone next →
      Unfolds policy first (alone next) (history ++ lone.tells next)
  | together {course next : Course} {history new : List BatchEvent} :
      Unfolds policy first (together course) history →
      Course.Step policy course next →
      next.history = course.history ++ new →
      Unfolds policy first (together next) (history ++ new)

/-- Every call has been invoked once, and every place holds what the invocation of its own
call returned. -/
structure Fulfilled (calls : List Call) (history : List BatchEvent) (results : List Call) :
    Prop where
  sameLength :
    results.length = calls.length
  invokedOnce :
    ∀ (index : Nat) (call : Call),
      calls[index]? = some call →
      history.count (.began index) = 1 ∧
        ∃ ending,
          endingsOf index history = [ending] ∧
            results[index]? =
              some (call.settle (ending.resultOr (Batch.breakdown call.name)))
  /-- No call is given up by the batch itself, unless it was given so. -/
  neverInternal :
    ∀ (index : Nat) (call result : Call),
      calls[index]? = some call →
      results[index]? = some result →
      ∀ reason,
        result.fault? = some (.internal reason) →
        call.fault? = some (.internal reason)

theorem settled_of_unfolds
    {carried : Carried}
    {conduct : Conduct}
    {history : List BatchEvent}
    (unfolds : Unfolds policy (settled carried) conduct history) :
    conduct = settled carried ∧ history = [] := by
  induction unfolds with
  | here =>
      exact ⟨rfl, rfl⟩
  | alone _ _ inductionHypothesis =>
      cases inductionHypothesis.1
  | together _ _ _ inductionHypothesis =>
      cases inductionHypothesis.1

theorem told_of_unfolds
    {call : Call}
    {conduct : Conduct}
    {history : List BatchEvent}
    (unfolds : Unfolds policy (alone { call := call }) conduct history) :
    ∃ lone, conduct = alone lone ∧ lone.call = call ∧ lone.Told history := by
  induction unfolds with
  | here =>
      refine ⟨_, rfl, rfl, ⟨rfl, fun _ => rfl, ?_, ?_⟩⟩
      · intro stage underway
        cases underway
      · intro ending ended
        cases ended
  | @alone lone next _ _ step inductionHypothesis =>
      obtain ⟨before, isBefore, sameCall, told⟩ := inductionHypothesis
      cases isBefore
      refine ⟨next, rfl, ?_, told.of_step step⟩
      cases step with
      | begin _ _ =>
          exact sameCall
      | proceed _ _ =>
          exact sameCall
  | together _ _ _ inductionHypothesis =>
      obtain ⟨_, isAlone, _⟩ := inductionHypothesis
      cases isAlone

theorem course_of_unfolds
    {schedule : Schedule}
    {conduct : Conduct}
    {history : List BatchEvent}
    (unfolds :
      Unfolds policy (together { batch := .start calls schedule limit false }) conduct
        history) :
    ∃ course, conduct = together course ∧ history = course.history ∧ course.ended = none ∧
      Course.Reaches policy { batch := .start calls schedule limit false } course := by
  induction unfolds with
  | here =>
      exact ⟨_, rfl, rfl, rfl, .refl⟩
  | alone _ _ inductionHypothesis =>
      obtain ⟨_, isTogether, _⟩ := inductionHypothesis
      cases isTogether
  | @together course next _ _ _ step grown inductionHypothesis =>
      obtain ⟨before, isBefore, isHistory, goesOn, reaches⟩ := inductionHypothesis
      cases isBefore
      refine ⟨next, rfl, by rw [grown, isHistory], ?_, reaches.tail (.step step)⟩
      exact Course.goesOn_of_step step (Course.Carries.of_reaches reaches).sameMode goesOn

/-- A call that is settled with what its invocation met by itself has no internal fault,
unless it was given so. -/
theorem fault?_ne_internal
    {call : Call}
    {ending : Ending String}
    {reason : String}
    (own : ∀ fault, ending = .finished (.error fault) → fault.isOwn = true)
    (met :
      (call.settle (ending.resultOr (Batch.breakdown call.name))).fault? =
        some (.internal reason)) :
    call.fault? = some (.internal reason) := by
  rcases Call.fault?_settle met with before | isOutcome
  · exact before
  · cases ending with
    | brokeDown =>
        cases isOutcome
    | finished outcome =>
        have isOwn := own (.internal reason) (congrArg Ending.finished isOutcome)
        cases isOwn

theorem fulfilled_of_lone
    {lone : Lone}
    {history : List BatchEvent}
    {ending : Ending String}
    (told : lone.Told history)
    (isEnded : lone.stage = some (.ended ending)) :
    Fulfilled [lone.call] history
      [lone.call.settle (ending.resultOr (Batch.breakdown lone.call.name))] := by
  obtain ⟨agrees, begunOnce, endings⟩ := told.begun _ isEnded
  have isOnly : endingsOf 0 history = [ending] := by
    obtain ⟨only, isSingle⟩ := List.length_eq_one_iff.mp endings
    have member := mem_endingsOf.mpr (told.returned ending isEnded)
    rw [isSingle] at member ⊢
    rw [List.mem_singleton.mp member]
  have own :
      ∀ fault, ending = .finished (.error fault) → fault.isOwn = true := by
    intro fault met
    rcases agrees fault met with isOwn | ended
    · exact isOwn
    · cases ended
  refine ⟨rfl, ?_, ?_⟩
  · intro index call given
    obtain ⟨rfl, rfl⟩ : index = 0 ∧ lone.call = call := by
      simpa [List.getElem?_singleton] using given
    exact ⟨begunOnce, ending, isOnly, rfl⟩
  · intro index call result given isResult reason met
    obtain ⟨rfl, rfl⟩ : index = 0 ∧ lone.call = call := by
      simpa [List.getElem?_singleton] using given
    cases isResult
    exact fault?_ne_internal own met

theorem fulfilled_of_course
    {schedule : Schedule}
    {course : Course}
    (acyclic : Dependency.Acyclic (table.getD []))
    (made : Execution.scheduleOf calls table = .ok schedule)
    (reaches :
      Course.Reaches policy { batch := .start calls schedule limit false } course)
    (isOver : course.IsOver)
    (goesOn : course.ended = none) :
    Fulfilled calls course.history (course.batch.results course.ended) := by
  have awaits := Execution.awaits_scheduleOf made
  have carries := Course.Carries.of_reaches reaches
  have traced := Course.Traced.of_reaches reaches
  have accounted := Course.Accounted.of_reaches reaches
  have spent := Course.Spent.of_reaches reaches
  have inOrder :=
    Course.inOrder_of_orderly awaits carries
      (Course.orderly_of_reaches awaits.1 awaits.2.1 reaches)
  have own :
      ∀ (index : Nat) (fault : Fault),
        .invoked index (.finished (.error fault)) ∈ course.history →
        fault.isOwn = true := by
    intro index fault isInvoked
    rcases accounted.explained index fault isInvoked with isOwn | isOutside | ⟨_, tripped⟩
    · exact isOwn
    · exact ((accounted.outsideEnds fault isOutside).2.1 goesOn).elim
    · exact (tripped (accounted.untripped_of_goesOn goesOn)).elim
  have once :
      ∀ (index : Nat) (call : Call),
        calls[index]? = some call →
        course.history.count (.began index) = 1 ∧
          ∃ ending,
            endingsOf index course.history = [ending] ∧
              (course.batch.results course.ended)[index]? =
                some (call.settle (ending.resultOr (Batch.breakdown call.name))) := by
    intro index call given
    obtain ⟨_, placed⟩ :=
      Course.isStored_of_isOver acyclic carries awaits.2.1 inOrder isOver goesOn given
    obtain ⟨hasBegun, ending, isInvoked⟩ := Course.invoked_of_stored traced goesOn placed
    obtain ⟨task, _, found, _, _, _⟩ := carries.task_of_call awaits.2.1 given
    have atLeast := List.count_pos_iff.mpr hasBegun
    have atMost := spent.beginnings index task found
    refine ⟨by omega, ending, spent.endingsOf_eq found isInvoked, ?_⟩
    exact Course.result_of_invoked carries awaits.2.1 traced spent isOver given isInvoked
  refine ⟨?_, once, ?_⟩
  · rw [Batch.results, List.length_map, carries.length_tasks awaits.2.1]
  · intro index call result given isResult reason met
    obtain ⟨_, ending, isOnly, isSettled⟩ := once index call given
    have settles := Option.some.inj (isResult.symm.trans isSettled)
    rw [settles] at met
    refine fault?_ne_internal ?_ met
    intro fault isFault
    apply own index fault
    rw [← isFault, ← mem_endingsOf, isOnly]
    exact List.mem_singleton.mpr rfl

/-- Calls under a table without cycles that go on after failures come to a return.  While the
context goes on each is then invoked once and comes back as it was invoked, if the timeout of
the calls can be counted from now; if it ends beyond the last instant, carrying them out breaks
down before anything has happened. -/
theorem concludes_fulfilled
    (continues : config.continueOnError = true)
    (acyclic : Dependency.Acyclic (table.getD []))
    (accepted : limit ≤ Execution.maxPermits) :
    (start config calls table limit now).Concludes policy ∧
      ∀ (conduct : Conduct) (history : List BatchEvent),
        Unfolds policy (start config calls table limit now) conduct history →
        ∀ carried, conduct.Returns carried →
          (calls = [] ∨ config.limit? now ≠ none →
            ∃ results, carried = .calls results ∧ Fulfilled calls history results) ∧
            (calls ≠ [] → config.limit? now = none → carried = .brokeDown ∧ history = []) := by
  have started := starts config calls table limit now
  generalize start config calls table limit now = first at started
  cases started with
  | nothing isEmpty =>
      refine ⟨.returned .settled, ?_⟩
      intro conduct history unfolds carried returns
      obtain ⟨isSettled, _⟩ := settled_of_unfolds unfolds
      rw [isSettled] at returns
      cases returns with
      | settled =>
          exact ⟨fun _ => ⟨[], rfl, by simp [isEmpty], by simp [isEmpty], by simp [isEmpty]⟩,
            fun someCalls => (someCalls isEmpty).elim⟩
  | refused refused =>
      obtain ⟨schedule, made⟩ := Execution.scheduleOf_isOk_of_acyclic calls acyclic
      rw [made] at refused
      cases refused
  | brokeDown _ tooMany =>
      have positive : 1 ≤ Execution.maxPermits := by
        decide
      omega
  | endless someCalls isEndless =>
      refine ⟨.returned .settled, ?_⟩
      intro conduct history unfolds carried returns
      obtain ⟨isSettled, nothingHappened⟩ := settled_of_unfolds unfolds
      rw [isSettled] at returns
      cases returns with
      | settled =>
          refine ⟨?_, fun _ _ => ⟨rfl, nothingHappened⟩⟩
          rintro (isEmpty | isTimed)
          · exact (someCalls isEmpty).elim
          · exact (isTimed isEndless).elim
  | @alone call isCall isTimed =>
      refine ⟨Lone.concludes policy _, ?_⟩
      intro conduct history unfolds carried returns
      obtain ⟨lone, isLone, sameCall, told⟩ := told_of_unfolds unfolds
      rw [isLone] at returns
      cases returns with
      | alone isEnded =>
          refine ⟨fun _ => ?_, fun _ isEndless => (isTimed isEndless).elim⟩
          rw [isCall, ← sameCall]
          exact ⟨_, rfl, fulfilled_of_lone told isEnded⟩
  | @together schedule _ made isTimed _ =>
      rw [continues]
      refine ⟨Course.concludes policy
        (Batch.Permitted.start calls schedule (max limit 1) _) (by omega), ?_⟩
      intro conduct history unfolds carried returns
      obtain ⟨course, isCourse, isHistory, goesOn, reaches⟩ := course_of_unfolds unfolds
      rw [isCourse] at returns
      cases returns with
      | together isOver =>
          refine ⟨fun _ => ?_, fun _ isEndless => (isTimed isEndless).elim⟩
          rw [isHistory]
          exact ⟨_, rfl, fulfilled_of_course acyclic made reaches isOver goesOn⟩

/-- Two calls share an id that a third one waits for, and they wait for ids without a
call. -/
theorem concludes_fulfilled_of_chain :
    (start {}
      [⟨"a", "t", .null, none⟩, ⟨"b", "t", .null, none⟩, ⟨"a", "u", .null, none⟩]
      (some [("b", ["a"]), ("a", ["x"]), ("x", ["y"])]) 0 0).Concludes {} ∧
      ∀ (conduct : Conduct) (history : List BatchEvent),
        Unfolds {} (start {}
          [⟨"a", "t", .null, none⟩, ⟨"b", "t", .null, none⟩, ⟨"a", "u", .null, none⟩]
          (some [("b", ["a"]), ("a", ["x"]), ("x", ["y"])]) 0 0) conduct history →
        ∀ carried, conduct.Returns carried →
          ∃ results, carried = .calls results ∧
            Fulfilled
              [⟨"a", "t", .null, none⟩, ⟨"b", "t", .null, none⟩, ⟨"a", "u", .null, none⟩]
              history results := by
  have acyclic : Dependency.Acyclic [("b", ["a"]), ("a", ["x"]), ("x", ["y"])] := by
    apply Dependency.acyclic_of_rank fun id =>
      if id = "b" then 3 else if id = "a" then 2 else if id = "x" then 1 else 0
    rintro id dependency ⟨names, member, listed⟩
    simp only [List.mem_cons, List.not_mem_nil, or_false, Prod.mk.injEq] at member
    rcases member with ⟨rfl, rfl⟩ | ⟨rfl, rfl⟩ | ⟨rfl, rfl⟩ <;>
      · rw [List.mem_singleton.mp listed]
        decide
  have returned :=
    @concludes_fulfilled {} {}
      [⟨"a", "t", .null, none⟩, ⟨"b", "t", .null, none⟩, ⟨"a", "u", .null, none⟩]
      (some [("b", ["a"]), ("a", ["x"]), ("x", ["y"])]) 0 0 rfl acyclic (by decide)
  refine ⟨returned.1, fun conduct history unfolds carried returns => ?_⟩
  exact (returned.2 conduct history unfolds carried returns).1 (Or.inr (by decide))

/-- With a timeout of more seconds than an instant can count nothing is invoked, although the
context goes on. -/
theorem unfulfilled_of_endless_timeout :
    (start { timeout := some (.ofSeconds 18446744073709551615) } [⟨"q", "q", .null, none⟩]
        none 1 0).Returns .brokeDown ∧
      ¬ Fulfilled [⟨"q", "q", .null, none⟩] [] [] := by
  refine ⟨.settled, fun fulfilled => ?_⟩
  have sameLength := fulfilled.sameLength
  cases sameLength

end Conduct

end Runbook
