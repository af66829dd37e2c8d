import Runbook.Proofs.Batch.Taskwise
import Runbook.Proofs.History

namespace Runbook

/-!
# Moves and the whole batch

Most moves leave the context alone and do not trip the batch; what happens in them agrees
with how the context stands.  The context ends from outside, or because a task trips the
batch.
-/

namespace Fault

/-- Whether an invocation of a tool meets this fault by itself. -/
def isOwn : Fault → Bool
  | toolFailed _ _ => true
  | toolTimeout _ => true
  | toolNotFound _ => true
  | circuitOpen _ => true
  | retriesExhausted _ _ => true
  | _ => false

end Fault

namespace AttemptOutcome

/-- An attempt meets a fault by itself, unless the context has ended. -/
theorem Fits.isOwn_or_ended
    {ended : Option Fault}
    {outcome : AttemptOutcome}
    (fits : outcome.Fits ended)
    {name : String}
    {fault : Fault}
    (met : outcome.ending name = .finished (.error fault)) :
    fault.isOwn = true ∨ ended = some fault := by
  cases outcome with
  | interrupted reason =>
      cases met
      exact Or.inr fits
  | text answer =>
      cases met
  | brokeDown =>
      cases met
  | failed reason =>
      cases met
      exact Or.inl rfl
  | panicked =>
      cases met
      exact Or.inl rfl
  | timedOut =>
      cases met
      exact Or.inl rfl

end AttemptOutcome

namespace Stage

/-- What a stage tells about the context: no attempt is made once the context has ended,
and a fault that ends the invocation is its own or that of the context. -/
def Agrees (ended : Option Fault) : Stage String → Prop
  | attempting _ => ended = none
  | resting _ => True
  | .ended ending =>
      ∀ fault, ending = .finished (.error fault) → fault.isOwn = true ∨ ended = some fault

theorem agrees_enter
    (attempt : Nat)
    (ended : Option Fault) :
    Agrees ended (.enter attempt ended) := by
  cases ended with
  | none =>
      rfl
  | some reason =>
      intro fault met
      cases met
      exact Or.inr rfl

/-- However an attempt ends, what follows agrees with the context. -/
theorem agrees_afterAttempt
    (policy : RetryPolicy)
    (attempt : Nat)
    {ended : Option Fault}
    {ending : Ending String}
    (explained : ∀ fault, ending = .finished (.error fault) →
      fault.isOwn = true ∨ ended = some fault) :
    Agrees ended (.afterAttempt policy attempt ending) := by
  match ending, explained with
  | .brokeDown, _ =>
      intro fault met
      cases met
  | .finished (.ok value), _ =>
      intro fault met
      cases met
  | .finished (.error reason), explained =>
      simp only [afterAttempt]
      split
      · intro fault met
        cases met
        exact explained reason rfl
      · split
        · trivial
        · split
          · intro fault met
            cases met
            exact explained reason rfl
          · intro fault met
            cases met
            exact Or.inl rfl

/-- A breakdown of the breaker is no fault at all. -/
theorem agrees_reported
    {ended : Option Fault}
    {stage : Stage String}
    (agrees : Agrees ended stage)
    (breaksDown : Bool) :
    Agrees ended (stage.reported breaksDown) := by
  cases stage with
  | attempting attempt =>
      exact agrees
  | resting attempt =>
      trivial
  | ended ending =>
      intro fault met
      simp only [Ending.reported] at met
      split at met
      · split at met
        · cases met
        · exact agrees fault met
      · exact agrees fault met

/-- The fault of a context that has ended is not reported as a failure. -/
theorem reported_fault
    {fault : Fault}
    (endsContext : fault.endsContext = true)
    (breaksDown : Bool) :
    (Stage.ended (.fault fault)).reported breaksDown = .ended (.fault fault) := by
  simp [reported, Ending.reported, Ending.fault, Verdict.of, endsContext]

theorem Opens.agrees
    {name : String}
    {ended : Option Fault}
    {stage : Stage String}
    (opens : Opens name ended stage) :
    Agrees ended stage := by
  cases opens with
  | notFound =>
      intro fault met
      cases met
      exact Or.inl rfl
  | turnedAway =>
      intro fault met
      cases met
      exact Or.inl rfl
  | admitted =>
      exact agrees_enter 1 ended

theorem Proceeds.agrees
    {policy : RetryPolicy}
    {name : String}
    {ended : Option Fault}
    {stage later : Stage String}
    (proceeds : Proceeds policy name ended stage later) :
    Agrees ended later := by
  cases proceeds with
  | attempted breaksDown fits =>
      exact agrees_reported
        (agrees_afterAttempt policy _ fun fault met => fits.isOwn_or_ended met)
        breaksDown
  | rested =>
      exact agrees_enter _ ended

end Stage

namespace BatchEvent

/-- Whenever the event happens, the history before it is like this. -/
def Whenever
    (event : BatchEvent) (before : List BatchEvent → Prop) (history : List BatchEvent) :
    Prop :=
  ∀ earlier later, history = earlier ++ event :: later → before earlier

variable {event : BatchEvent} {before : List BatchEvent → Prop}

theorem whenever_nil :
    Whenever event before [] := by
  intro earlier later isSplit
  simp at isSplit

/-- A history that grows is still like this whenever the event happens, if it is like this
when the event is among what is new. -/
theorem Whenever.append
    {history new : List BatchEvent}
    (sofar : Whenever event before history)
    (now : ∀ earlier later, new = earlier ++ event :: later →
      before (history ++ earlier)) :
    Whenever event before (history ++ new) := by
  intro earlier later isSplit
  rcases History.split_append isSplit with ⟨rest, isHistory, _⟩ | ⟨between, isEarlier, isNew⟩
  · exact sofar earlier rest isHistory
  · rw [isEarlier]
    exact now between later isNew

end BatchEvent

theorem ContextEnds.endsContext
    {ended : Option Fault}
    {fault : Fault}
    (ends : ContextEnds ended fault) :
    fault.endsContext = true := by
  cases ends with
  | first endsContext =>
      exact endsContext
  | overtaken =>
      rfl

namespace Call

/-- Whether a call has met a fault that is not the end of its context. -/
def failsItself (call : Call) : Bool :=
  match call.fault? with
  | some fault => !fault.endsContext
  | none => false

end Call

namespace Batch

/-- A call trips a batch that fails fast if it is the first one to fail by itself while
the context goes on. -/
theorem trips_iff
    {batch : Batch}
    {call : Call}
    {ended : Option Fault} :
    batch.trips call ended = true ↔
      batch.failFast = true ∧ ended = none ∧ batch.trippedBy = none ∧
        call.failsItself = true := by
  have shape :
      batch.trips call ended =
        (batch.failFast && ended.isNone && batch.trippedBy.isNone && call.failsItself) :=
    rfl
  simp [shape, and_assoc]

end Batch

namespace Course

variable {policy : RetryPolicy} {limit : Nat} {course next : Course}

/-- Whether an event may happen in a course and leave the context as it is. -/
def Admits (course : Course) : BatchEvent → Prop
  | .contextEnded _ => False
  | .began _ => course.ended = none
  | .attempted _ _ => course.ended = none
  | .invoked _ ending =>
      ∀ fault, ending = .finished (.error fault) →
        fault.isOwn = true ∨ course.ended = some fault
  | .finished _ call => course.batch.trips call course.ended = false
  | .tripped _ => False
  | .gaveUp _ => course.ended ≠ none
  | .collected _ => True

/-- What a move is to the context and to the question who trips the batch. -/
inductive Affects (course next : Course) : Prop where
  | unaffected (new : List BatchEvent) :
      next.ended = course.ended →
      next.batch.trippedBy = course.batch.trippedBy →
      next.history = course.history ++ new →
      (∀ event ∈ new, course.Admits event) →
      Affects course next
  | outside {fault : Fault} :
      ContextEnds course.ended fault →
      next = course.endContext fault →
      Affects course next
  | trips {index : Nat} {task : BatchTask} {ending : Ending String} :
      course.batch.tasks[index]? = some task →
      course.batch.trips (settled task ending) course.ended = true →
      next = course.finish index task ending →
      Affects course next

/-- A course admits what happens at a stage that agrees with its context. -/
private theorem admits_ofStage
    {stage : Stage String}
    (agrees : stage.Agrees course.ended)
    (index : Nat) :
    ∀ event ∈ BatchEvent.ofStage index stage, course.Admits event := by
  intro event member
  cases stage with
  | attempting attempt =>
      rw [List.mem_singleton.mp member]
      exact agrees
  | resting attempt =>
      cases member
  | ended ending =>
      rw [List.mem_singleton.mp member]
      exact agrees

/-- The context ends from outside or because a task trips the batch. -/
theorem affects_of_moves
    (moves : Moves policy course next) :
    Affects course next := by
  cases moves with
  | outside ends =>
      exact .outside ends rfl
  | step step =>
      cases step with
      | look _ =>
          exact .unaffected [] rfl
            (Batch.dispatch_frame course.batch course.ended).2.2.2.2.2.2
            (List.append_nil _).symm (by simp)
      | @collect index _ _ _ found returned =>
          refine .unaffected [.collected index] rfl ?_ rfl (by simp [Admits])
          exact (Batch.dispatch_frame _ course.ended).2.2.2.2.2.2.trans
            (Batch.collect_frame found returned).2.2.2
      | @request index _ _ _ _ _ =>
          exact .unaffected [] rfl (Batch.request_frame course.batch index).2.2.2.2
            (List.append_nil _).symm (by simp)
      | @giveUp index _ _ found waits ended =>
          exact .unaffected [.gaveUp index] rfl (Batch.giveUp_frame found waits _).2.2.2.2
            rfl (by simp [Admits, ended])
      | @begin index _ stage _ _ goesOn opens =>
          refine .unaffected (.began index :: BatchEvent.ofStage index stage) rfl rfl
            (List.append_assoc _ _ _) ?_
          intro event member
          rcases List.mem_cons.mp member with isBeginning | isReached
          · rw [isBeginning]
            exact goesOn
          · exact admits_ofStage opens.agrees index event isReached
      | @proceed index _ _ later _ _ proceeds =>
          exact .unaffected (BatchEvent.ofStage index later) rfl rfl
            (by simp [enter]) (admits_ofStage proceeds.agrees index)
      | @finish index task ending found running =>
          by_cases trips : course.batch.trips (settled task ending) course.ended = true
          · exact .trips found trips rfl
          · refine .unaffected [.finished index (settled task ending)] ?_ ?_ ?_ ?_
            · rw [ended_finish found, if_neg trips]
            · rw [batch_finish found, if_neg trips]
              exact (Batch.release_frame _).2.2.2.2
            · rw [history_finish found, if_neg trips]
            · intro event member
              rw [List.mem_singleton.mp member]
              exact Bool.eq_false_iff.mpr trips

/-- What has happened stays in the history. -/
theorem history_of_moves
    (moves : Moves policy course next) :
    ∃ new, next.history = course.history ++ new := by
  cases affects_of_moves moves with
  | unaffected new _ _ grown _ =>
      exact ⟨new, grown⟩
  | outside _ isNext =>
      rw [isNext]
      exact ⟨_, rfl⟩
  | trips found _ isNext =>
      rw [isNext]
      exact ⟨_, history_finish found _⟩

/-- A context that has ended does not go on again. -/
theorem ended_of_moves
    (moves : Moves policy course next)
    (hasEnded : course.ended ≠ none) :
    next.ended ≠ none := by
  cases affects_of_moves moves with
  | unaffected _ sameEnd _ _ _ =>
      rw [sameEnd]
      exact hasEnded
  | outside _ isNext =>
      rw [isNext]
      exact Option.some_ne_none _
  | trips found trips isNext =>
      rw [isNext, ended_finish found, if_pos trips]
      exact Option.some_ne_none _

/-- Only faults of a context end a context. -/
theorem endsContext_of_moves
    (moves : Moves policy course next)
    (endedByContext : ∀ fault, course.ended = some fault → fault.endsContext = true) :
    ∀ fault, next.ended = some fault → fault.endsContext = true := by
  intro fault ended
  cases affects_of_moves moves with
  | unaffected _ sameEnd _ _ _ =>
      exact endedByContext fault (sameEnd.symm.trans ended)
  | @outside reason ends isNext =>
      rw [isNext] at ended
      have same : reason = fault := Option.some.inj ended
      subst same
      exact ends.endsContext
  | trips found trips isNext =>
      rw [isNext, ended_finish found, if_pos trips] at ended
      cases ended
      rfl

end Course

end Runbook
