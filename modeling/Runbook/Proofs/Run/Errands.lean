import Mathlib.Data.List.Induction
import Runbook.Proofs.Batch.Progress
import Runbook.Proofs.Batch.Tripping
import Runbook.Proofs.History

namespace Runbook

/-!
# Batches within a run

A run has a context, and every batch that it carries out has one below it.  What happens in
a batch happens in the run.  The context of the batch may end by itself, but once that of the
run has ended, that of the batch has ended as well: so nothing is started any more.
-/

/-- One thing that happens in a run. -/
inductive RunEvent where
  /-- The context of the run ends.  It may do so in the very turn in which the planner or the
  reviewer returns.  A turn is one step, so that return has been made before the end. -/
  | contextEnded (fault : Fault) (onReturn : Bool)
  /-- The planner is called. -/
  | plannerCalled
  /-- The reviewer is called. -/
  | reviewerCalled
  /-- A model is asked. -/
  | modelAsked
  /-- Something happens in the batch that is under way. -/
  | inBatch (event : BatchEvent)
  deriving DecidableEq

namespace RunEvent

/-- Whether a planner, a reviewer, a model or a tool is started. -/
def starts : RunEvent → Bool
  | contextEnded _ _ => false
  | inBatch event => event.starts
  | _ => true

/-- Whether the context of the run ends, for a reason of contexts, while nobody is just
returning. -/
def IsEnd (event : RunEvent) : Prop :=
  ∃ fault : Fault, fault.endsContext = true ∧ event = .contextEnded fault false

theorem IsEnd.starts_eq_false
    {event : RunEvent}
    (isEnd : event.IsEnd) :
    event.starts = false := by
  obtain ⟨fault, -, rfl⟩ := isEnd
  rfl

/-- Whether the context of the run has ended. -/
def HasEnded (history : List RunEvent) : Prop :=
  ∃ fault onReturn, .contextEnded fault onReturn ∈ history

/-- Nothing is started after the end of the context. -/
def Orderly (history : List RunEvent) : Prop :=
  ∀ earlier later fault onReturn, history = earlier ++ .contextEnded fault onReturn :: later →
    ∀ event ∈ later, event.starts = false

/-- If the context of the run has ended, it did so as its planner or reviewer returned, and
nothing else has happened since. -/
def EndsWithReturn (history : List RunEvent) : Prop :=
  ∃ earlier ends, history = earlier ++ ends ∧ ¬ HasEnded earlier ∧
    ∀ event ∈ ends, ∃ fault, event = .contextEnded fault true

/-- The context of the run has ended, and it was not the return of the planner or the reviewer
that came first and ended the run. -/
def CutShort (history : List RunEvent) : Prop :=
  HasEnded history ∧ ¬ EndsWithReturn history

section

variable {history new : List RunEvent} {event : RunEvent}

theorem not_hasEnded_nil :
    ¬ HasEnded [] := by
  simp [HasEnded]

theorem not_hasEnded_singleton
    (isStart : event.starts = true) :
    ¬ HasEnded [event] := by
  rintro ⟨fault, onReturn, isEnd⟩
  rw [← List.mem_singleton.mp isEnd] at isStart
  cases isStart

theorem hasEnded_append :
    HasEnded (history ++ new) ↔ HasEnded history ∨ HasEnded new := by
  simp [HasEnded, exists_or]

theorem not_hasEnded_inBatch
    (events : List BatchEvent) :
    ¬ HasEnded (events.map .inBatch) := by
  simp [HasEnded]

theorem CutShort.hasEnded
    (cutShort : CutShort history) :
    HasEnded history :=
  cutShort.1

/-- What has ended was cut short, unless it ended with a return. -/
theorem cutShort_of_hasEnded
    (hasEnded : HasEnded history)
    (noReturn : ∀ fault, .contextEnded fault true ∉ history) :
    CutShort history := by
  refine ⟨hasEnded, ?_⟩
  rintro ⟨earlier, ends, rfl, goesOn, areReturns⟩
  obtain ⟨fault, onReturn, isEnd⟩ := (hasEnded_append.mp hasEnded).resolve_left goesOn
  obtain ⟨last, isReturn⟩ := areReturns _ isEnd
  rw [isReturn] at isEnd
  exact noReturn last (List.mem_append_right _ isEnd)

/-- An end that comes with a return cuts nothing short. -/
theorem cutShort_of_concat
    {fault : Fault}
    (cutShort : CutShort (history ++ [.contextEnded fault true])) :
    CutShort history := by
  obtain ⟨-, goesOnAfter⟩ := cutShort
  by_cases hasEnded : HasEnded history
  · refine ⟨hasEnded, fun endsWithReturn => goesOnAfter ?_⟩
    obtain ⟨earlier, ends, rfl, goesOn, areReturns⟩ := endsWithReturn
    exact ⟨earlier, ends ++ [.contextEnded fault true], by simp, goesOn,
      List.forall_mem_append.mpr ⟨areReturns, List.forall_mem_singleton.mpr ⟨fault, rfl⟩⟩⟩
  · exact absurd ⟨history, _, rfl, hasEnded, List.forall_mem_singleton.mpr ⟨fault, rfl⟩⟩
      goesOnAfter

/-- A history without the end of the context is orderly, whatever is started. -/
theorem orderly_of_not_hasEnded
    (goesOn : ¬ HasEnded history) :
    Orderly history := by
  intro earlier later fault onReturn isSplit
  exact absurd ⟨fault, onReturn, by simp [isSplit]⟩ goesOn

/-- What comes later may start something only if the context has not ended before. -/
theorem Orderly.append
    (sofar : Orderly history)
    (now : Orderly new)
    (startsNothing : HasEnded history → ∀ event ∈ new, event.starts = false) :
    Orderly (history ++ new) := by
  intro earlier later fault onReturn isSplit event isLater
  rcases History.split_append isSplit with ⟨rest, isHistory, rfl⟩ | ⟨between, -, isNew⟩
  · rcases List.mem_append.mp isLater with inRest | inNew
    · exact sofar earlier rest fault onReturn isHistory event inRest
    · exact startsNothing ⟨fault, onReturn, by simp [isHistory]⟩ event inNew
  · exact now between later fault onReturn isNew event isLater

theorem orderly_of_starts_eq_false
    (startsNothing : ∀ event ∈ new, event.starts = false) :
    Orderly new := by
  intro earlier later fault onReturn isSplit event isLater
  exact startsNothing event (by simp [isSplit, isLater])

end

end RunEvent

open RunEvent

/-- Calls that are carried out within a run, with all that has happened in the run. -/
structure Errand where
  conduct : Conduct
  history : List RunEvent

namespace Errand

/-- What may happen next: a step of the calls, the end of their own context, or the end of
that of the run, by which the former has ended as well. -/
inductive Moves (policy : RetryPolicy) : Errand → Errand → Prop where
  | alone {lone next : Lone} {stage : Stage String} {history : List RunEvent} :
      (HasEnded history → lone.ended ≠ none) →
      Lone.Step policy lone next →
      next.stage = some stage →
      Moves policy ⟨.alone lone, history⟩
        ⟨.alone next, history ++ (BatchEvent.ofStage 0 stage).map .inBatch⟩
  | together {course next : Course} {new : List BatchEvent} {history : List RunEvent} :
      (HasEnded history → course.ended ≠ none) →
      Course.Step policy course next →
      next.history = course.history ++ new →
      Moves policy ⟨.together course, history⟩ ⟨.together next, history ++ new.map .inBatch⟩
  | aloneEnds {lone : Lone} {fault : Fault} {history : List RunEvent} :
      ContextEnds lone.ended fault →
      Moves policy ⟨.alone lone, history⟩ ⟨.alone { lone with ended := some fault }, history⟩
  | togetherEnds {course : Course} {fault : Fault} {history : List RunEvent} :
      ContextEnds course.ended fault →
      Moves policy ⟨.together course, history⟩
        ⟨.together (course.endContext fault), history ++ [.inBatch (.contextEnded fault)]⟩
  | runEnds {conduct : Conduct} {fault : Fault} {history : List RunEvent} :
      conduct.ended ≠ none →
      fault.endsContext = true →
      Moves policy ⟨conduct, history⟩ ⟨conduct, history ++ [.contextEnded fault false]⟩

/-- Whatever may have happened after any number of moves. -/
abbrev Reaches (policy : RetryPolicy) : Errand → Errand → Prop :=
  Relation.ReflTransGen (Moves policy)

variable {policy : RetryPolicy} {errand next : Errand}

/-- Within a run calls are carried out as they are without one. -/
theorem conduct_of_reaches
    (reaches : Reaches policy errand next) :
    Conduct.Reaches policy errand.conduct next.conduct := by
  induction reaches with
  | refl =>
      exact .refl
  | tail _ moves inductionHypothesis =>
      cases moves with
      | alone _ step _ =>
          exact inductionHypothesis.tail (.step (.alone step))
      | together _ step _ =>
          exact inductionHypothesis.tail (.step (.together step))
      | aloneEnds ends =>
          exact inductionHypothesis.tail (.aloneOutside ends)
      | togetherEnds ends =>
          exact inductionHypothesis.tail (.togetherOutside ends)
      | runEnds _ _ =>
          exact inductionHypothesis

/-- However calls may be carried out, they may be so within a run whose context goes on. -/
theorem exists_of_reaches
    {conduct later : Conduct}
    (reaches : Conduct.Reaches policy conduct later)
    {history : List RunEvent}
    (goesOn : ¬ HasEnded history) :
    ∃ new : List BatchEvent,
      Reaches policy ⟨conduct, history⟩ ⟨later, history ++ new.map .inBatch⟩ := by
  have goesOnAfter (new : List BatchEvent) : ¬ HasEnded (history ++ new.map .inBatch) := by
    rw [hasEnded_append]
    exact not_or_intro goesOn (not_hasEnded_inBatch new)
  induction reaches with
  | refl =>
      refine ⟨[], ?_⟩
      rw [List.map_nil, List.append_nil]
  | tail _ moves inductionHypothesis =>
      obtain ⟨new, reachesMiddle⟩ := inductionHypothesis
      have goesOnNow := goesOnAfter new
      cases moves with
      | step step =>
          cases step with
          | @alone lone following step =>
              obtain ⟨stage, isStage⟩ : ∃ stage, following.stage = some stage := by
                cases step <;> exact ⟨_, rfl⟩
              refine ⟨new ++ BatchEvent.ofStage 0 stage, ?_⟩
              rw [List.map_append, ← List.append_assoc]
              exact reachesMiddle.tail
                (.alone (fun hasEnded => absurd hasEnded goesOnNow) step isStage)
          | together step =>
              obtain ⟨more, isGrown⟩ := Course.history_of_moves (.step step)
              refine ⟨new ++ more, ?_⟩
              rw [List.map_append, ← List.append_assoc]
              exact reachesMiddle.tail
                (.together (fun hasEnded => absurd hasEnded goesOnNow) step isGrown)
      | aloneOutside ends =>
          exact ⟨new, reachesMiddle.tail (.aloneEnds ends)⟩
      | @togetherOutside course fault ends =>
          refine ⟨new ++ [.contextEnded fault], ?_⟩
          rw [List.map_append, ← List.append_assoc]
          exact reachesMiddle.tail (.togetherEnds ends)

/-- Nothing happens to calls that are settled. -/
theorem settled_of_reaches
    {carried : Carried}
    {history : List RunEvent}
    (reaches : Reaches policy ⟨.settled carried, history⟩ next) :
    next = ⟨.settled carried, history⟩ := by
  induction reaches with
  | refl =>
      rfl
  | tail _ moves inductionHypothesis =>
      rw [inductionHypothesis] at moves
      cases moves with
      | runEnds hasEnded _ =>
          exact absurd rfl hasEnded

/-- What may happen once the context of a stage has ended starts no attempt. -/
theorem starts_ofStage
    {stage : Stage String}
    {ended : Option Fault}
    (agrees : stage.Agrees ended)
    (hasEnded : ended ≠ none)
    (index : Nat) :
    ∀ event ∈ (BatchEvent.ofStage index stage).map RunEvent.inBatch, event.starts = false := by
  cases stage with
  | attempting attempt =>
      exact absurd agrees hasEnded
  | resting attempt =>
      nofun
  | ended ending =>
      intro event isEvent
      rw [List.mem_singleton.mp isEvent]
      rfl

/-- What one move adds. -/
structure Adds (errand next : Errand) (new : List RunEvent) : Prop where
  grows : next.history = errand.history ++ new
  orderly : Orderly new
  /-- Nothing is started once the context of the run has ended. -/
  startsNothing : HasEnded errand.history → ∀ event ∈ new, event.starts = false

/-- What is added in a batch does not end the context of the run. -/
theorem adds_inBatch
    {new : List BatchEvent}
    (grows : next.history = errand.history ++ new.map .inBatch)
    (startsNothing : HasEnded errand.history →
      ∀ event ∈ new.map RunEvent.inBatch, event.starts = false) :
    errand.Adds next (new.map .inBatch) :=
  ⟨grows, orderly_of_not_hasEnded (not_hasEnded_inBatch new), startsNothing⟩

theorem exists_adds
    (moves : Moves policy errand next) :
    ∃ new, errand.Adds next new := by
  cases moves with
  | @alone lone following stage history endsInside step isStage =>
      have agrees : stage.Agrees lone.ended := by
        cases step with
        | begin _ opens =>
            cases isStage
            exact opens.agrees
        | proceed _ proceeds =>
            cases isStage
            exact proceeds.agrees
      exact ⟨_, adds_inBatch rfl fun hasEnded =>
        starts_ofStage agrees (endsInside hasEnded) 0⟩
  | @together course following new history endsInside step isGrown =>
      refine ⟨_, adds_inBatch rfl fun hasEnded => ?_⟩
      intro event isEvent
      obtain ⟨inner, isInner, rfl⟩ := List.mem_map.mp isEvent
      cases Course.affects_of_moves (.step step) with
      | unaffected added _ _ isAdded admits =>
          have isNew : new = added := List.append_cancel_left (isGrown.symm.trans isAdded)
          have isAdmitted := admits inner (isNew ▸ isInner)
          cases inner <;> first | rfl | exact absurd isAdmitted (endsInside hasEnded)
      | @outside fault _ isNext =>
          rw [isNext] at isGrown
          have isNew : [.contextEnded fault] = new := List.append_cancel_left isGrown
          rw [← isNew, List.mem_singleton] at isInner
          rw [isInner]
          rfl
      | trips _ trips _ =>
          exact absurd (Batch.trips_iff.mp trips).2.1 (endsInside hasEnded)
  | @aloneEnds lone fault history ends =>
      have isGrown : history = history ++ ([] : List BatchEvent).map .inBatch :=
        (List.append_nil history).symm
      exact ⟨_, adds_inBatch isGrown fun _ => by simp⟩
  | @togetherEnds course fault history ends =>
      have isGrown :
          history ++ [.inBatch (.contextEnded fault)] =
            history ++ [BatchEvent.contextEnded fault].map .inBatch := rfl
      exact ⟨_, adds_inBatch isGrown fun _ => List.forall_mem_singleton.mpr rfl⟩
  | @runEnds conduct fault history hasEnded endsContext =>
      have startsNothing : ∀ event ∈ [RunEvent.contextEnded fault false],
          event.starts = false :=
        List.forall_mem_singleton.mpr rfl
      exact ⟨_, rfl, orderly_of_starts_eq_false startsNothing, fun _ => startsNothing⟩

/-- Whatever happens, nothing is started after the end of the context of the run. -/
theorem orderly_of_reaches
    (reaches : Reaches policy errand next)
    (orderly : Orderly errand.history) :
    errand.history <+: next.history ∧ Orderly next.history := by
  induction reaches with
  | refl =>
      exact ⟨List.prefix_rfl, orderly⟩
  | tail _ moves inductionHypothesis =>
      obtain ⟨isPrefix, orderlySoFar⟩ := inductionHypothesis
      obtain ⟨new, adds⟩ := exists_adds moves
      rw [adds.grows]
      exact ⟨isPrefix.trans (List.prefix_append ..),
        orderlySoFar.append adds.orderly adds.startsNothing⟩

end Errand

end Runbook
