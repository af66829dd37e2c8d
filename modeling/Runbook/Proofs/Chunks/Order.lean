import Runbook.Proofs.Chunks.Relay
import Runbook.Proofs.Context

namespace Runbook

/-!
# The order of chunks

What has begun, what was left and what has still to come are the chunks in their order, and a
chunk goes as it may by itself.  Once the context above has ended between two chunks, nothing
begins any more, and the calls that had not begun are settled with the reason.
-/

namespace Relay

variable {policy : RetryPolicy} {config : BatchConfig} {latest : Instant}
  {chunks : List (List Call)} {first relay next later : Relay} {course other : Course}

theorem courses_of_under
    (isUnder : relay.leg = .under course) :
    relay.courses = relay.past ++ [course] := by
  simp only [courses, isUnder]

theorem courses_of_idle
    (isIdle : ∀ course, relay.leg ≠ .under course) :
    relay.courses = relay.past := by
  unfold courses
  split
  · rename_i isUnder
    exact (isIdle _ isUnder).elim
  · exact List.append_nil _

theorem courses_of_between
    (isBetween : relay.leg = .between) :
    relay.courses = relay.past :=
  courses_of_idle (by rw [isBetween]; nofun)

theorem leftOver_of_none
    (noneLeft : relay.left = none) :
    relay.leftOver = [] := by
  simp only [leftOver, noneLeft]

/-- When the context above ends, a chunk that is under way goes on under it; where there is
none, nothing else changes. -/
theorem endAbove_cases
    (relay : Relay)
    (fault : Fault) :
    (∃ course,
      relay.leg = .under course ∧
        relay.endAbove fault =
          { relay with ended := some fault, leg := .under (course.under fault) }) ∨
      (∀ course, relay.leg ≠ .under course) ∧
        relay.endAbove fault = { relay with ended := some fault } := by
  obtain ⟨past, leg, coming, left, ended⟩ := relay
  cases leg with
  | under course =>
      exact Or.inl ⟨course, rfl, rfl⟩
  | between =>
      exact Or.inr ⟨nofun, rfl⟩
  | brokeDown =>
      exact Or.inr ⟨nofun, rfl⟩

/-- What holds of chunks that are carried out one after the other, whatever happens. -/
structure Sound (policy : RetryPolicy) (config : BatchConfig) (chunks : List (List Call))
    (relay : Relay) : Prop where
  divided :
    relay.courses.map Course.calls ++ (relay.leftOver ++ relay.coming) = chunks
  pastOver : ∀ course ∈ relay.past,
    course.IsOver
  alone : ∀ course ∈ relay.courses,
    Course.Reaches policy (.ofChunk config course.calls) course
  leftLast :
    relay.left ≠ none → relay.leg = .between ∧ relay.coming = []
  endsContext : ∀ fault,
    relay.ended = some fault → fault.endsContext = true

namespace Sound

theorem start
    (policy : RetryPolicy)
    (config : BatchConfig)
    (calls : List Call)
    (size : Nat) :
    Sound policy config (Execution.chunks (Execution.chunkSize config size) calls)
      (start config calls size) where
  divided := rfl
  pastOver _ isPast := (List.not_mem_nil isPast).elim
  alone _ hasBegun := (List.not_mem_nil hasBegun).elim
  leftLast isLeft := (isLeft rfl).elim
  endsContext _ hasEnded := by cases hasEnded

/-- While there is a chunk under way or to come, none was left. -/
theorem noneLeft
    (sound : Sound policy config chunks relay)
    (goesOn : ¬ relay.IsOver) :
    relay.left = none := by
  by_contra isLeft
  exact goesOn (sound.leftLast isLeft)

theorem noneLeft_of_under
    (sound : Sound policy config chunks relay)
    (isUnder : relay.leg = .under course) :
    relay.left = none := by
  refine sound.noneLeft fun isOver => ?_
  rw [isOver.1] at isUnder
  cases isUnder

/-- The chunk under way goes as it may by itself. -/
theorem alone_of_under
    (sound : Sound policy config chunks relay)
    (isUnder : relay.leg = .under course) :
    Course.Reaches policy (.ofChunk config course.calls) course := by
  refine sound.alone course ?_
  rw [courses_of_under isUnder]
  exact List.mem_append_right _ (List.mem_singleton_self course)

/-- The chunk under way goes on, and how the context above stands is of no account. -/
theorem run
    {goingOn : Course}
    (sound : Sound policy config chunks relay)
    (isUnder : relay.leg = .under course)
    (reaches : Course.Reaches policy course goingOn)
    {ended : Option Fault}
    (endsContext : ∀ fault, ended = some fault → fault.endsContext = true) :
    Sound policy config chunks { relay with leg := .under goingOn, ended := ended } := by
  have aloneOn := (sound.alone_of_under isUnder).trans reaches
  have sameCalls : goingOn.calls = course.calls :=
    Course.calls_of_reaches aloneOn
  have divided := sound.divided
  have alone := sound.alone
  rw [courses_of_under isUnder] at divided alone
  refine {
    divided := ?_
    pastOver := sound.pastOver
    alone := ?_
    leftLast := fun isLeft => (isLeft (sound.noneLeft_of_under isUnder)).elim
    endsContext := endsContext }
  · rw [courses_of_under rfl, ← divided]
    simp only [List.map_append, List.map_cons, List.map_nil, sameCalls]
    rfl
  · intro begun hasBegun
    rw [courses_of_under rfl] at hasBegun
    rcases List.mem_append.mp hasBegun with isPast | isLast
    · exact alone begun (List.mem_append_left _ isPast)
    · rw [List.mem_singleton.mp isLast, sameCalls]
      exact aloneOn

/-- The chunk under way is over. -/
theorem close
    (sound : Sound policy config chunks relay)
    (isUnder : relay.leg = .under course)
    (isOver : course.IsOver) :
    Sound policy config chunks
      { relay with past := relay.past ++ [course], leg := .between } := by
  have divided := sound.divided
  have alone := sound.alone
  rw [courses_of_under isUnder] at divided alone
  refine {
    divided := ?_
    pastOver := ?_
    alone := ?_
    leftLast := fun isLeft => (isLeft (sound.noneLeft_of_under isUnder)).elim
    endsContext := sound.endsContext }
  · rw [courses_of_between rfl, ← divided]
    rfl
  · intro closed isPast
    rcases List.mem_append.mp isPast with isEarlier | isLast
    · exact sound.pastOver closed isEarlier
    · rw [List.mem_singleton.mp isLast]
      exact isOver
  · rw [courses_of_between rfl]
    exact alone

/-- The next chunk begins. -/
theorem begin
    {chunk : List Call}
    {rest : List (List Call)}
    (sound : Sound policy config chunks relay)
    (isBetween : relay.leg = .between)
    (isComing : relay.coming = chunk :: rest) :
    Sound policy config chunks
      { relay with leg := .under (.ofChunk config chunk), coming := rest } := by
  have noneLeft : relay.left = none := by
    refine sound.noneLeft fun isOver => ?_
    rw [isOver.2] at isComing
    cases isComing
  have divided := sound.divided
  have alone := sound.alone
  rw [courses_of_between isBetween] at divided alone
  rw [leftOver_of_none noneLeft, isComing] at divided
  refine {
    divided := ?_
    pastOver := sound.pastOver
    alone := ?_
    leftLast := fun isLeft => (isLeft noneLeft).elim
    endsContext := sound.endsContext }
  · have noneLeftOver :
        leftOver { relay with leg := .under (.ofChunk config chunk), coming := rest } = [] :=
      leftOver_of_none noneLeft
    rw [courses_of_under rfl, noneLeftOver, ← divided]
    simp
  · intro begun hasBegun
    rw [courses_of_under rfl] at hasBegun
    rcases List.mem_append.mp hasBegun with isPast | isLast
    · exact alone begun isPast
    · rw [List.mem_singleton.mp isLast, Course.calls_ofChunk]

/-- The machinery breaks down before the next chunk begins. -/
theorem breakDown
    (sound : Sound policy config chunks relay)
    (isBetween : relay.leg = .between)
    (isComing : relay.coming ≠ []) :
    Sound policy config chunks { relay with leg := .brokeDown } := by
  have noneLeft := sound.noneLeft fun isOver => isComing isOver.2
  have sameCourses : courses { relay with leg := .brokeDown } = relay.courses := by
    rw [courses_of_between isBetween, courses_of_idle fun _ isUnder => by cases isUnder]
  exact {
    divided := by
      rw [sameCourses]
      exact sound.divided
    pastOver := sound.pastOver
    alone := by
      rw [sameCourses]
      exact sound.alone
    leftLast := fun isLeft => (isLeft noneLeft).elim
    endsContext := sound.endsContext }

/-- The chunks that have not begun are left. -/
theorem leave
    (sound : Sound policy config chunks relay)
    (isBetween : relay.leg = .between)
    (isComing : relay.coming ≠ [])
    (fault : Fault) :
    Sound policy config chunks
      { relay with left := some (fault, relay.coming), coming := [] } := by
  have noneLeft := sound.noneLeft fun isOver => isComing isOver.2
  have divided := sound.divided
  rw [leftOver_of_none noneLeft] at divided
  exact {
    divided := by
      rw [← divided]
      simp [courses, leftOver]
    pastOver := sound.pastOver
    alone := sound.alone
    leftLast := fun _ => ⟨isBetween, rfl⟩
    endsContext := sound.endsContext }

/-- Whatever happens next keeps chunks sound. -/
theorem of_moves
    (sound : Sound policy config chunks relay)
    (moves : Moves policy config latest relay next) :
    Sound policy config chunks next := by
  cases moves with
  | chunkEnds isUnder ends =>
      exact sound.run isUnder (.single (.outside ends)) sound.endsContext
  | @ends fault ends =>
      have endsContext : ∀ other, some fault = some other → other.endsContext = true := by
        intro other isOther
        rw [← Option.some.inj isOther]
        exact ends.endsContext
      obtain ⟨course, isUnder, isEnded⟩ | ⟨_, isEnded⟩ := relay.endAbove_cases fault
      · rw [isEnded]
        exact sound.run isUnder (course.reaches_under policy (endsContext fault rfl)) endsContext
      · rw [isEnded]
        exact { sound with endsContext := endsContext }
  | step step =>
      cases step with
      | run isUnder courseStep =>
          exact sound.run isUnder (.single (.step courseStep)) sound.endsContext
      | close isUnder isOver =>
          exact sound.close isUnder isOver
      | begin isBetween isComing _ _ _ =>
          exact sound.begin isBetween isComing
      | breakDown isBetween isComing _ _ _ =>
          exact sound.breakDown isBetween isComing
      | leave isBetween isComing _ =>
          exact sound.leave isBetween isComing _

/-- Chunks stay sound along every run. -/
theorem of_reaches
    (sound : Sound policy config chunks relay)
    (reaches : Reaches policy config latest relay later) :
    Sound policy config chunks later := by
  induction reaches with
  | refl =>
      exact sound
  | tail _ moves inductionHypothesis =>
      exact inductionHypothesis.of_moves moves

end Sound

/-- What follows once the context above has ended between two chunks. -/
structure CutOff (relay : Relay) (fault : Fault) (later : Relay) : Prop where
  isBetween :
    later.leg = .between
  samePast :
    later.past = relay.past
  hasEnded :
    ∃ reason, later.ended = some reason ∧ ContextGoes (some fault) (some reason)
  left :
    later.left = relay.left ∧ later.coming = relay.coming ∨
      relay.left = none ∧ later.coming = [] ∧
        ∃ reason, later.left = some (reason, relay.coming) ∧
          ContextGoes (some fault) (some reason)

namespace CutOff

variable {fault : Fault}

theorem of_moves
    (cutOff : CutOff relay fault later)
    (sound : Sound policy config chunks later)
    (moves : Moves policy config latest later next) :
    CutOff relay fault next := by
  obtain ⟨isBetween, samePast, ⟨reason, hasEnded, goes⟩, left⟩ := cutOff
  cases moves with
  | chunkEnds isUnder ends =>
      rw [isBetween] at isUnder
      cases isUnder
  | @ends other ends =>
      obtain ⟨course, isUnder, -⟩ | ⟨-, isEnded⟩ := later.endAbove_cases other
      · rw [isBetween] at isUnder
        cases isUnder
      rw [isEnded]
      refine ⟨isBetween, samePast, ⟨other, rfl, ?_⟩, left⟩
      rw [hasEnded] at ends
      cases ends
      cases goes with
      | stays =>
          exact .ends .overtaken
      | ends ends =>
          cases ends
  | step step =>
      cases step with
      | run isUnder courseStep =>
          rw [isBetween] at isUnder
          cases isUnder
      | close isUnder isOver =>
          rw [isBetween] at isUnder
          cases isUnder
      | begin _ _ isLive _ _ =>
          rw [hasEnded] at isLive
          cases isLive
      | breakDown _ _ isLive _ _ =>
          rw [hasEnded] at isLive
          cases isLive
      | @leave why _ isComing isWhy =>
          have noneLeft := sound.noneLeft fun isOver => isComing isOver.2
          rw [hasEnded] at isWhy
          cases isWhy
          rcases left with ⟨sameLeft, sameComing⟩ | ⟨-, isDone, -⟩
          · refine ⟨isBetween, samePast, ⟨reason, hasEnded, goes⟩,
              Or.inr ⟨sameLeft ▸ noneLeft, rfl, reason, ?_, goes⟩⟩
            rw [sameComing]
          · exact (isComing isDone).elim

/-- Once the context above has ended between two chunks, nothing begins any more. -/
theorem of_reaches
    (sound : Sound policy config chunks relay)
    (isBetween : relay.leg = .between)
    (hasEnded : relay.ended = some fault)
    (reaches : Reaches policy config latest relay later) :
    CutOff relay fault later := by
  induction reaches with
  | refl =>
      exact ⟨isBetween, rfl, ⟨fault, hasEnded, .stays⟩, Or.inl ⟨rfl, rfl⟩⟩
  | tail reaches moves inductionHypothesis =>
      exact inductionHypothesis.of_moves (sound.of_reaches reaches) moves

/-- The calls that had not begun are settled with the reason for which the context above has
ended. -/
theorem results
    (cutOff : CutOff relay fault later)
    (isOver : later.IsOver) :
    ∃ reason, ContextGoes (some fault) (some reason) ∧
      later.results =
        relay.results ++ relay.coming.flatten.map fun call => call.settle (.error reason) := by
  obtain ⟨-, samePast, ⟨reason, -, goes⟩, left⟩ := cutOff
  rcases left with ⟨sameLeft, sameComing⟩ | ⟨noneLeft, -, reason, isLeft, goes⟩
  · refine ⟨reason, goes, ?_⟩
    rw [← sameComing, isOver.2]
    simp only [Relay.results, samePast, sameLeft, List.flatten_nil, List.map_nil,
      List.append_nil]
  · refine ⟨reason, goes, ?_⟩
    simp only [Relay.results, samePast, isLeft, noneLeft, List.append_nil]

end CutOff

end Relay

end Runbook
