import Mathlib.Data.List.Forall2
import Runbook.Proofs.Batch.Progress
import Runbook.Proofs.Batch.Traces

namespace Runbook

/-!
# Every call gets its own result

Calls that are not settled yet come back settled, each in its place and with its own id,
name and input.  The place of a task among the tasks of its batch is all that links a
result to its call, since several calls may share an id.
-/

namespace Call

/-- The second call is a settled version of the first one. -/
structure Answers (given result : Call) : Prop where
  sameId :
    result.id = given.id
  sameName :
    result.name = given.name
  sameInput :
    result.input = given.input
  isDone :
    result.isDone = true
  textOrFault :
    (∃ text, result.result? = some text ∧ result.fault? = none) ∨
      ∃ fault, result.fault? = some fault ∧ result.result? = none

/-- Settling an open call answers it. -/
theorem answers_settle
    {given : Call}
    (isOpen : given.outcome = none)
    (outcome : Except Fault String) :
    given.Answers (given.settle outcome) := by
  have shape : given.settle outcome = { given with outcome := some outcome } := by
    simp [settle, isOpen]
  rw [shape]
  refine ⟨rfl, rfl, rfl, rfl, ?_⟩
  cases outcome with
  | ok text =>
      exact Or.inl ⟨text, rfl, rfl⟩
  | error fault =>
      exact Or.inr ⟨fault, rfl, rfl⟩

end Call

namespace Course

variable {policy : RetryPolicy} {limit : Nat} {course : Course}
  {calls : List Call} {schedule : Schedule} {failFast : Bool}

/-- What a batch answers for a task is the given call, settled. -/
theorem answer_settles
    (traced : course.Traced)
    {index : Nat}
    {task : BatchTask}
    (found : course.batch.tasks[index]? = some task) :
    ∃ outcome,
      course.batch.answer course.ended task = task.call.settle outcome := by
  unfold Batch.answer
  split
  case h_1 call place =>
    have form := traced.form index task found
    rw [place] at form
    exact form.settles_collected
  case h_2 =>
    exact ⟨_, rfl⟩
  case h_3 =>
    exact ⟨_, rfl⟩

/-- The results of a batch are its calls, each settled at its own place. -/
theorem forall₂_results
    (sameLength : schedule.awaited.length = calls.length)
    (carries : Carries calls schedule limit failFast course)
    (traced : course.Traced) :
    List.Forall₂ (fun call result => ∃ outcome, result = call.settle outcome) calls
      (course.batch.results course.ended) := by
  rw [← carries.map_call sameLength, Batch.results, List.forall₂_map_left_iff,
    List.forall₂_map_right_iff, List.forall₂_same]
  intro task isTask
  obtain ⟨index, found⟩ := List.mem_iff_getElem?.mp isTask
  exact answer_settles traced found

end Course

namespace Conduct

variable {policy : RetryPolicy} {config : BatchConfig} {calls : List Call}
  {table : Option (List (String × List String))} {limit : Nat} {now : Instant}

/-- Each of the calls is answered at its own place, and nothing else is. -/
def Answered (calls : List Call) (carried : Carried) : Prop :=
  ∃ results,
    carried = .calls results ∧ results.length = calls.length ∧
      ∀ (index : Nat) (call result : Call),
        calls[index]? = some call →
        results[index]? = some result →
        call.Answers result

/-- What a batch of open calls returns answers each of them. -/
theorem answered_of_course
    {schedule : Schedule}
    {failFast : Bool}
    {course : Course}
    (isOpen : ∀ call ∈ calls, call.outcome = none)
    (sameLength : schedule.awaited.length = calls.length)
    (carries : Course.Carries calls schedule limit failFast course)
    (traced : course.Traced) :
    Answered calls (.calls (course.batch.results course.ended)) := by
  have settled := Course.forall₂_results sameLength carries traced
  refine ⟨_, rfl, settled.length_eq.symm, ?_⟩
  intro index call result given answered
  obtain ⟨inCalls, rfl⟩ := List.getElem?_eq_some_iff.mp given
  obtain ⟨inResults, rfl⟩ := List.getElem?_eq_some_iff.mp answered
  obtain ⟨outcome, settles⟩ := settled.get inCalls inResults
  simp only [List.get_eq_getElem] at settles
  rw [settles]
  exact Call.answers_settle (isOpen _ (List.getElem_mem inCalls)) outcome

/-- Open calls under a table without cycles come to a return, whatever happens and in whatever
order it happens.  If their timeout can be counted from now, each is answered at its own place;
if it ends beyond the last instant, carrying them out breaks down. -/
theorem concludes_answered
    (isOpen : ∀ call ∈ calls, call.outcome = none)
    (acyclic : Dependency.Acyclic (table.getD []))
    (accepted : limit ≤ Execution.maxPermits) :
    (start config calls table limit now).Concludes policy ∧
      ∀ conduct, Reaches policy (start config calls table limit now) conduct →
        ∀ carried, conduct.Returns carried →
          (calls = [] ∨ config.limit? now ≠ none → Answered calls carried) ∧
            (calls ≠ [] → config.limit? now = none → carried = .brokeDown) := by
  have started := starts config calls table limit now
  generalize start config calls table limit now = first at started
  cases started with
  | nothing isEmpty =>
      refine ⟨.returned .settled, ?_⟩
      intro conduct reaches carried returns
      rw [settled_of_reaches reaches] at returns
      cases returns with
      | settled =>
          exact ⟨fun _ => ⟨[], rfl, by simp [isEmpty], by simp⟩,
            fun someCalls => (someCalls isEmpty).elim⟩
  | refused refused =>
      obtain ⟨schedule, made⟩ := Execution.scheduleOf_isOk_of_acyclic calls acyclic
      rw [made] at refused
      cases refused
  | brokeDown _ tooMany =>
      have positive : 1 ≤ Execution.maxPermits := by
        decide
      omega
  | endless someCalls isEndless =>
      refine ⟨.returned .settled, ?_⟩
      intro conduct reaches carried returns
      rw [settled_of_reaches reaches] at returns
      cases returns with
      | settled =>
          refine ⟨?_, fun _ _ => rfl⟩
          rintro (isEmpty | isTimed)
          · exact (someCalls isEmpty).elim
          · exact (isTimed isEndless).elim
  | @alone call isCall isTimed =>
      refine ⟨Lone.concludes policy _, ?_⟩
      intro conduct reaches carried returns
      obtain ⟨later, isLater, sameCall⟩ := alone_of_reaches reaches
      rw [isLater] at returns
      cases returns with
      | alone ended =>
          refine ⟨fun _ => ?_, fun _ isEndless => (isTimed isEndless).elim⟩
          refine ⟨_, rfl, by simp [isCall], ?_⟩
          intro index given result isGiven isResult
          have atFront : index = 0 ∧ call = given := by
            rw [isCall] at isGiven
            simpa [List.getElem?_singleton] using isGiven
          obtain ⟨isZero, isSame⟩ := atFront
          rw [isZero] at isResult
          have settles := Option.some.inj isResult
          rw [← settles, sameCall, ← isSame]
          exact Call.answers_settle (isOpen call (by simp [isCall])) _
  | @together schedule _ made isTimed _ =>
      have awaits := Execution.awaits_scheduleOf made
      refine ⟨Course.concludes policy
        (Batch.Permitted.start calls schedule (max limit 1) _) (by omega), ?_⟩
      intro conduct reaches carried returns
      obtain ⟨later, isLater, courseReaches⟩ := together_of_reaches reaches
      rw [isLater] at returns
      cases returns with
      | together isOver =>
          refine ⟨fun _ => ?_, fun _ isEndless => (isTimed isEndless).elim⟩
          exact answered_of_course isOpen awaits.2.1
            (Course.Carries.of_reaches courseReaches)
            (Course.Traced.of_reaches courseReaches)

/-- Two calls of one id, one of them on a chain, are answered one by one. -/
theorem concludes_answered_of_shared_id :
    (start {} [⟨"a", "t", .null, none⟩, ⟨"b", "t", .null, none⟩, ⟨"a", "u", .null, none⟩]
      (some [("b", ["a"])]) 2 0).Concludes {} ∧
      ∀ conduct, Reaches {} (start {}
          [⟨"a", "t", .null, none⟩, ⟨"b", "t", .null, none⟩, ⟨"a", "u", .null, none⟩]
          (some [("b", ["a"])]) 2 0) conduct →
        ∀ carried, conduct.Returns carried →
          Answered
            [⟨"a", "t", .null, none⟩, ⟨"b", "t", .null, none⟩, ⟨"a", "u", .null, none⟩]
            carried := by
  have edge :
      ∀ {id dependency : String},
        Dependency.Listed [("b", ["a"])] id dependency →
        id = "b" ∧ dependency = "a" := by
    rintro id dependency ⟨names, member, listed⟩
    simp_all
  have acyclic : Dependency.Acyclic [("b", ["a"])] := by
    intro id cycle
    obtain ⟨next, first, rest⟩ := Relation.TransGen.head'_iff.mp cycle
    obtain ⟨isSecond, isFirst⟩ := edge first
    rw [isSecond, isFirst] at rest
    rcases Relation.ReflTransGen.cases_head rest with same | ⟨_, further, _⟩
    · exact absurd same (by decide)
    · exact absurd (edge further).1 (by decide)
  have returned :=
    @concludes_answered {} {}
      [⟨"a", "t", .null, none⟩, ⟨"b", "t", .null, none⟩, ⟨"a", "u", .null, none⟩]
      (some [("b", ["a"])]) 2 0 (by decide) acyclic (by decide)
  refine ⟨returned.1, fun conduct reaches carried returns => ?_⟩
  exact (returned.2 conduct reaches carried returns).1 (Or.inr (by decide))

/-- A timeout of more seconds than an instant can count leaves an open call unanswered. -/
theorem unanswered_of_endless_timeout :
    (start { timeout := some (.ofSeconds 18446744073709551615) } [⟨"q", "q", .null, none⟩]
        none 1 0).Returns .brokeDown ∧
      ¬ Answered [⟨"q", "q", .null, none⟩] .brokeDown := by
  refine ⟨.settled, ?_⟩
  rintro ⟨results, isCalls, _⟩
  cases isCalls

end Conduct

end Runbook
