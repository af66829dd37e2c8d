import Runbook.Proofs.Batch.Effects
import Runbook.Proofs.Batch.Schedule

namespace Runbook

/-!
# How calls start and what they become

There are six ways to start to carry out calls.  No move leads from one way to another:
what is settled stays so, one call alone stays alone, and calls side by side stay the
course that they started as.
-/

theorem Instant.after?_eq_none_iff
    {now : Instant}
    {duration : Duration} :
    now.after? duration = none ↔ bound ≤ now + duration := by
  simp [after?]

/-- Only a timeout that ends beyond the last instant cannot be counted from now. -/
theorem BatchConfig.limit?_eq_none_iff
    {config : BatchConfig}
    {now : Instant} :
    config.limit? now = none ↔
      ∃ timeout, config.timeout = some timeout ∧ Instant.bound ≤ now + timeout := by
  rw [limit?]
  cases config.timeout with
  | none =>
      simp
  | some timeout =>
      simp [Instant.after?_eq_none_iff]

namespace Conduct

variable {policy : RetryPolicy} {config : BatchConfig} {calls : List Call}
  {table : Option (List (String × List String))} {limit : Nat} {now : Instant}

/-- Why the context of calls has ended, if it has; calls that are settled have none. -/
def ended : Conduct → Option Fault
  | settled _ => none
  | alone lone => lone.ended
  | together course => course.ended

/-- The ways in which calls start. -/
inductive Starts
    (config : BatchConfig) (calls : List Call)
    (table : Option (List (String × List String))) (limit : Nat) (now : Instant) :
    Conduct → Prop where
  | nothing :
      calls = [] →
      Starts config calls table limit now (settled (.calls []))
  | refused {fault : Fault} :
      Execution.scheduleOf calls table = .error fault →
      Starts config calls table limit now (settled (.refused fault))
  | endless :
      calls ≠ [] →
      config.limit? now = none →
      Starts config calls table limit now (settled .brokeDown)
  | alone {call : Call} :
      calls = [call] →
      config.limit? now ≠ none →
      Starts config calls table limit now (alone { call := call })
  | brokeDown :
      2 ≤ calls.length →
      Execution.maxPermits < max limit 1 →
      Starts config calls table limit now (settled .brokeDown)
  | together {schedule : Schedule} :
      2 ≤ calls.length →
      Execution.scheduleOf calls table = .ok schedule →
      config.limit? now ≠ none →
      max limit 1 ≤ Execution.maxPermits →
      Starts config calls table limit now
        (together {
          batch := .start calls schedule (max limit 1) (!config.continueOnError) })

/-- Calls start in one of these ways. -/
theorem starts
    (config : BatchConfig)
    (calls : List Call)
    (table : Option (List (String × List String)))
    (limit : Nat)
    (now : Instant) :
    Starts config calls table limit now (start config calls table limit now) := by
  cases calls with
  | nil =>
      exact .nothing rfl
  | cons first rest =>
      cases made : Execution.scheduleOf (first :: rest) table with
      | error fault =>
          simp only [start, Execution.of, made]
          exact .refused made
      | ok schedule =>
          cases timed : config.limit? now with
          | none =>
              have endless : Starts config (first :: rest) table limit now (settled .brokeDown) :=
                .endless (List.cons_ne_nil first rest) timed
              cases rest <;>
                simpa only [start, Execution.of, made, timed] using endless
          | some until_ =>
              have isTimed : config.limit? now ≠ none := by
                rw [timed]
                exact Option.some_ne_none until_
              cases rest with
              | nil =>
                  simp only [start, Execution.of, made, timed]
                  exact .alone rfl isTimed
              | cons second others =>
                  simp only [start, Execution.of, made, timed, Execution.breaksDown,
                    Batch.start, decide_eq_true_eq]
                  split
                  case isTrue tooMany =>
                    exact .brokeDown (by simp) tooMany
                  case isFalse notTooMany =>
                    exact .together (by simp) made isTimed (Nat.le_of_not_lt notTooMany)

/-- Nothing follows what is settled. -/
theorem settled_of_reaches
    {carried : Carried}
    {conduct : Conduct}
    (reaches : Reaches policy (settled carried) conduct) :
    conduct = settled carried := by
  induction reaches with
  | refl =>
      rfl
  | tail _ moves inductionHypothesis =>
      rw [inductionHypothesis] at moves
      cases moves with
      | step step =>
          cases step

/-- A call that is carried out alone stays the call that it is. -/
theorem alone_of_reaches
    {lone : Lone}
    {conduct : Conduct}
    (reaches : Reaches policy (alone lone) conduct) :
    ∃ later, conduct = alone later ∧ later.call = lone.call := by
  induction reaches with
  | refl =>
      exact ⟨lone, rfl, rfl⟩
  | tail _ moves inductionHypothesis =>
      obtain ⟨middle, isMiddle, sameCall⟩ := inductionHypothesis
      rw [isMiddle] at moves
      cases moves with
      | aloneOutside _ =>
          exact ⟨_, rfl, sameCall⟩
      | step step =>
          cases step with
          | alone loneStep =>
              cases loneStep with
              | begin _ _ =>
                  exact ⟨_, rfl, sameCall⟩
              | proceed _ _ =>
                  exact ⟨_, rfl, sameCall⟩

/-- What happens to calls side by side happens to their course. -/
theorem together_of_moves
    {course : Course}
    {conduct : Conduct}
    (moves : Moves policy (together course) conduct) :
    ∃ next, conduct = together next ∧ Course.Moves policy course next := by
  cases moves with
  | togetherOutside ends =>
      exact ⟨_, rfl, .outside ends⟩
  | step step =>
      cases step with
      | together courseStep =>
          exact ⟨_, rfl, .step courseStep⟩

/-- A course of calls side by side is one of the ways in which they are carried out. -/
theorem reaches_together
    {course later : Course}
    (reaches : Course.Reaches policy course later) :
    Reaches policy (together course) (together later) := by
  induction reaches with
  | refl =>
      exact .refl
  | tail _ moves inductionHypothesis =>
      cases moves with
      | step step =>
          exact inductionHypothesis.tail (.step (.together step))
      | outside ends =>
          exact inductionHypothesis.tail (.togetherOutside ends)

/-- Calls side by side stay so, and their course is what it comes to. -/
theorem together_of_reaches
    {course : Course}
    {conduct : Conduct}
    (reaches : Reaches policy (together course) conduct) :
    ∃ later, conduct = together later ∧ Course.Reaches policy course later := by
  induction reaches with
  | refl =>
      exact ⟨course, rfl, .refl⟩
  | tail _ moves inductionHypothesis =>
      obtain ⟨middle, isMiddle, reachesMiddle⟩ := inductionHypothesis
      rw [isMiddle] at moves
      obtain ⟨later, isLater, courseMoves⟩ := together_of_moves moves
      exact ⟨later, isLater, reachesMiddle.tail courseMoves⟩

/-- Calls that are carried out side by side started as a batch under their schedule. -/
theorem course_of_reaches
    {course : Course}
    (reaches :
      Reaches policy (start config calls table limit now) (together course)) :
    ∃ schedule,
      Execution.scheduleOf calls table = .ok schedule ∧
        Course.Reaches policy
          { batch :=
              .start calls schedule (max limit 1) (!config.continueOnError) }
          course := by
  have started := starts config calls table limit now
  generalize start config calls table limit now = first at started reaches
  cases started with
  | nothing _ =>
      cases settled_of_reaches reaches
  | refused _ =>
      cases settled_of_reaches reaches
  | endless _ _ =>
      cases settled_of_reaches reaches
  | brokeDown _ _ =>
      cases settled_of_reaches reaches
  | alone _ _ =>
      obtain ⟨later, isAlone, _⟩ := alone_of_reaches reaches
      cases isAlone
  | @together schedule _ made _ _ =>
      obtain ⟨later, isLater, courseReaches⟩ := together_of_reaches reaches
      cases isLater
      exact ⟨schedule, made, courseReaches⟩

end Conduct

end Runbook
