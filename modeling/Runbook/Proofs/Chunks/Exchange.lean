import Runbook.Proofs.Chunks.Order

namespace Runbook

/-!
# Chunks do not tell how others went

A chunk begins while the context above goes on, and what it finds then does not depend on how
the chunks before it went.  So another course of a chunk could stand in its place, one that
was tripped or took too long or neither, and nothing else would have to be different.
-/

namespace Relay

variable {policy : RetryPolicy} {config : BatchConfig} {latest : Instant}
  {chunks : List (List Call)} {first relay next : Relay} {course other : Course}

/-- A course of the chunk under way is a way in which the chunks go on. -/
theorem reaches_under
    (config : BatchConfig)
    (latest : Instant)
    (isUnder : relay.leg = .under course)
    (reaches : Course.Reaches policy course other) :
    Reaches policy config latest relay { relay with leg := .under other } := by
  induction reaches with
  | refl =>
      rw [← isUnder]
  | tail _ moves inductionHypothesis =>
      cases moves with
      | step step =>
          exact inductionHypothesis.tail (.step (.run rfl step))
      | outside ends =>
          exact inductionHypothesis.tail (.chunkEnds rfl ends)

/-- While the context above goes on, the next chunk may begin and come to its end. -/
theorem reaches_through
    {chunk : List Call}
    {rest : List (List Call)}
    {now : Instant}
    (isBetween : relay.leg = .between)
    (isComing : relay.coming = chunk :: rest)
    (isLive : relay.ended = none)
    (isBefore : now ≤ latest)
    (admits : config.Admits now)
    (goes : Course.Reaches policy (.ofChunk config chunk) other)
    (isOver : other.IsOver) :
    Reaches policy config latest relay
      { relay with past := relay.past ++ [other], leg := .between, coming := rest } := by
  have begun : Reaches policy config latest relay
      { relay with leg := .under (.ofChunk config chunk), coming := rest } :=
    .single (.step (.begin isBetween isComing isLive isBefore admits))
  have gone := begun.trans (reaches_under config latest rfl goes)
  exact gone.tail (.step (.close rfl isOver))

/-- How the chunks stood before one of them began. -/
def before (relay : Relay) (chunk : List Call) : Relay :=
  { past := relay.past, coming := chunk :: relay.coming, left := relay.left }

theorem before_eq_of_begin
    {chunk : List Call}
    {rest : List (List Call)}
    (isBetween : relay.leg = .between)
    (isComing : relay.coming = chunk :: rest)
    (isLive : relay.ended = none) :
    before { relay with leg := .under (.ofChunk config chunk), coming := rest } chunk =
      relay := by
  obtain ⟨past, leg, coming, left, ended⟩ := relay
  cases isBetween
  cases isComing
  cases isLive
  rfl

/-- The chunk under way began while the context above went on. -/
def HasBegun (policy : RetryPolicy) (config : BatchConfig) (latest : Instant)
    (first relay : Relay) (course : Course) : Prop :=
  (∃ now, now ≤ latest ∧ config.Admits now) ∧
    Reaches policy config latest first (relay.before course.calls)

/-- Nothing has happened but to the chunk under way. -/
theorem HasBegun.goesOn
    (hasBegun : HasBegun policy config latest first relay course)
    (sound : Sound policy config chunks relay)
    (isUnder : relay.leg = .under course)
    (reaches : Course.Reaches policy course other)
    (ended : Option Fault) :
    HasBegun policy config latest first { relay with leg := .under other, ended := ended }
      other := by
  have sameCalls : other.calls = course.calls :=
    Course.calls_of_reaches ((sound.alone_of_under isUnder).trans reaches)
  refine ⟨hasBegun.1, ?_⟩
  rw [sameCalls]
  exact hasBegun.2

/-- Every chunk that is under way has begun. -/
theorem hasBegun_of_reaches
    (sound : Sound policy config chunks first)
    (isIdle : ∀ course, first.leg ≠ .under course)
    (reaches : Reaches policy config latest first relay) :
    ∀ course, relay.leg = .under course →
      HasBegun policy config latest first relay course := by
  induction reaches with
  | refl =>
      intro course isUnder
      exact (isIdle course isUnder).elim
  | @tail relay next reaches moves inductionHypothesis =>
      have soundly := sound.of_reaches reaches
      intro later isLater
      cases moves with
      | @chunkEnds course fault isUnder ends =>
          cases isLater
          exact (inductionHypothesis course isUnder).goesOn soundly isUnder
            (.single (.outside ends)) relay.ended
      | @ends fault ends =>
          obtain ⟨course, isUnder, isEnded⟩ | ⟨isIdle, isEnded⟩ := relay.endAbove_cases fault
          · rw [isEnded] at isLater ⊢
            cases isLater
            exact (inductionHypothesis course isUnder).goesOn soundly isUnder
              (course.reaches_under policy ends.endsContext) (some fault)
          · rw [isEnded] at isLater
            exact (isIdle later isLater).elim
      | step step =>
          cases step with
          | @run course going isUnder courseStep =>
              cases isLater
              exact (inductionHypothesis course isUnder).goesOn soundly isUnder
                (.single (.step courseStep)) relay.ended
          | close isUnder isOver =>
              cases isLater
          | @begin chunk rest now isBetween isComing isLive isBefore admits =>
              cases isLater
              refine ⟨⟨now, isBefore, admits⟩, ?_⟩
              rw [Course.calls_ofChunk, before_eq_of_begin isBetween isComing isLive]
              exact reaches
          | breakDown isBetween isComing _ _ _ =>
              cases isLater
          | leave isBetween isComing _ =>
              rw [isBetween] at isLater
              cases isLater

/-- Another course of a chunk could have been the one that is over, and the context above
could have ended since. -/
theorem HasBegun.closes
    (hasBegun : HasBegun policy config latest first relay course)
    (goes : Course.Reaches policy (.ofChunk config course.calls) other)
    (isOver : other.IsOver)
    (endsContext : ∀ fault, relay.ended = some fault → fault.endsContext = true) :
    Reaches policy config latest first
      { relay with past := relay.past ++ [other], leg := .between } := by
  obtain ⟨⟨now, isBefore, admits⟩, reaches⟩ := hasBegun
  have closed := reaches.trans (reaches_through rfl rfl rfl isBefore admits goes isOver)
  cases ended : relay.ended with
  | none =>
      exact closed
  | some fault =>
      exact closed.tail (.ends (.first (endsContext fault ended)))

/-- A chunk that is over could have gone otherwise, and everything else would be as it is. -/
theorem exchanges_of_reaches
    (sound : Sound policy config chunks first)
    (isIdle : ∀ course, first.leg ≠ .under course)
    (isFirst : first.past = [])
    (reaches : Reaches policy config latest first relay)
    (goes : Course.Reaches policy (.ofChunk config course.calls) other)
    (isOver : other.IsOver) :
    ∀ earlier after, relay.past = earlier ++ course :: after →
      Reaches policy config latest first
        { relay with past := earlier ++ other :: after } := by
  induction reaches with
  | refl =>
      intro earlier after isPast
      rw [isFirst] at isPast
      simp at isPast
  | @tail relay next reaches moves inductionHypothesis =>
      intro earlier after isPast
      have soundly := sound.of_reaches reaches
      cases moves with
      | chunkEnds isUnder ends =>
          exact (inductionHypothesis earlier after isPast).tail (.chunkEnds isUnder ends)
      | ends ends =>
          exact (inductionHypothesis earlier after isPast).tail (.ends ends)
      | step step =>
          cases step with
          | run isUnder courseStep =>
              exact (inductionHypothesis earlier after isPast).tail
                (.step (.run isUnder courseStep))
          | @close closed isUnder hasEnded =>
              rcases List.eq_nil_or_concat after with isLast | ⟨middle, last, isAfter⟩
              · -- The chunk that could have gone otherwise is the last one.
                rw [isLast] at isPast ⊢
                obtain ⟨samePast, isSame⟩ := List.append_inj' isPast rfl
                rw [List.singleton_inj.mp isSame] at isUnder
                rw [← samePast]
                exact (hasBegun_of_reaches sound isIdle reaches course isUnder).closes goes
                  isOver soundly.endsContext
              · rw [isAfter, List.concat_eq_append] at isPast ⊢
                have isSplit : relay.past ++ [closed] = (earlier ++ course :: middle) ++ [last] :=
                  isPast.trans (List.append_assoc earlier (course :: middle) [last]).symm
                obtain ⟨samePast, isSame⟩ := List.append_inj' isSplit rfl
                have exchanged :=
                  (inductionHypothesis earlier middle samePast).tail
                    (.step (.close isUnder hasEnded))
                rw [List.append_assoc, isSame] at exchanged
                exact exchanged
          | begin isBetween isComing isLive isBefore admits =>
              exact (inductionHypothesis earlier after isPast).tail
                (.step (.begin isBetween isComing isLive isBefore admits))
          | breakDown isBetween isComing isLive isBefore notAdmits =>
              exact (inductionHypothesis earlier after isPast).tail
                (.step (.breakDown isBetween isComing isLive isBefore notAdmits))
          | leave isBetween isComing hasEnded =>
              exact (inductionHypothesis earlier after isPast).tail
                (.step (.leave isBetween isComing hasEnded))

end Relay

end Runbook
