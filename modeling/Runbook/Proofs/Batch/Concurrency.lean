import Runbook.Proofs.Batch.Conduct

namespace Runbook

/-!
# How many calls run at once

A call that is being invoked holds a permit, and there are no more permits than the limit,
or one if the limit is zero.  One call alone needs no permit and is never more than one.
What has returned has no call under way.
-/

namespace Course

variable {limit : Nat} {course : Course}

/-- No more calls are being invoked than there are permits. -/
theorem inside_le_of_permitted
    (permitted : course.batch.Permitted limit) :
    (Conduct.together course).inside ≤ limit := by
  have holders :
      (Conduct.together course).inside ≤
        course.batch.tasks.countP (·.place.holdsPermit) := by
    apply List.countP_mono_left
    intro task _ isRunning
    cases place : task.place with
    | running stage =>
        rfl
    | _ =>
        simp [place] at isRunning
  have balance := permitted.balance
  omega

/-- No call is being invoked when nothing is under way any more. -/
theorem inside_eq_zero_of_isOver
    (isOver : course.IsOver) :
    (Conduct.together course).inside = 0 := by
  apply List.countP_eq_zero.mpr
  intro task member isRunning
  rcases isOver.2 task member with held | isCollected
  · simp [held] at isRunning
  · obtain ⟨call, stored⟩ := TaskPlace.isCollected_iff.mp isCollected
    simp [stored] at isRunning

end Course

namespace Conduct

variable {policy : RetryPolicy} {config : BatchConfig} {calls : List Call}
  {table : Option (List (String × List String))} {limit : Nat} {now : Instant}
  {conduct : Conduct}

/-- Whatever happens, no more calls are invoked at once than the limit allows, and none is
when the calls return. -/
theorem inside_le_limit
    (reaches : Reaches policy (start config calls table limit now) conduct) :
    conduct.inside ≤ max limit 1 ∧
      ∀ carried, conduct.Returns carried → conduct.inside = 0 := by
  have started := starts config calls table limit now
  generalize start config calls table limit now = first at started reaches
  have settledNeverInside :
      ∀ {carried : Carried}, first = settled carried →
        conduct.inside ≤ max limit 1 ∧
          ∀ carried, conduct.Returns carried → conduct.inside = 0 := by
    intro carried isSettled
    rw [isSettled] at reaches
    rw [settled_of_reaches reaches]
    exact ⟨Nat.zero_le _, fun _ _ => rfl⟩
  cases started with
  | nothing _ =>
      exact settledNeverInside rfl
  | refused _ =>
      exact settledNeverInside rfl
  | endless _ _ =>
      exact settledNeverInside rfl
  | brokeDown _ _ =>
      exact settledNeverInside rfl
  | alone _ _ =>
      obtain ⟨later, isAlone, _⟩ := alone_of_reaches reaches
      rw [isAlone]
      constructor
      · simp only [inside]
        split
        · omega
        · omega
      · intro carried returns
        cases returns with
        | alone ended =>
            simp [inside, Lone.isInside, ended]
  | @together schedule _ _ _ _ =>
      obtain ⟨later, isLater, courseReaches⟩ := together_of_reaches reaches
      rw [isLater]
      constructor
      · exact Course.inside_le_of_permitted
          (Course.Carries.of_reaches courseReaches).permitted
      · intro carried returns
        cases returns with
        | together isOver =>
            exact Course.inside_eq_zero_of_isOver isOver

/-- A limit of zero still lets one call in. -/
theorem inside_le_limit_of_zero :
    ∃ conduct : Conduct,
      Reaches {} (start {} [⟨"a", "t", .null, none⟩, ⟨"b", "t", .null, none⟩] none 0 0)
        conduct ∧
        conduct.inside = 1 ∧ conduct.inside ≤ max 0 1 := by
  have looked :
      Reaches {} (start {} [⟨"a", "t", .null, none⟩, ⟨"b", "t", .null, none⟩] none 0 0)
        (together (Course.look {
          batch := Batch.start [⟨"a", "t", .null, none⟩, ⟨"b", "t", .null, none⟩]
            ⟨[0, 1], [[], []]⟩ 1 false })) :=
    .single (.step (.together (.look rfl)))
  have asked := looked.tail
    (.step (.together (@Course.Step.request _ _ 0 _ rfl rfl rfl (by decide))))
  have begun := asked.tail
    (.step (.together (@Course.Step.begin _ _ 0 _ _ rfl rfl rfl .admitted)))
  have askedToo := begun.tail
    (.step (.together (@Course.Step.request _ _ 1 _ rfl rfl rfl (by decide))))
  exact ⟨_, askedToo, by decide, (inside_le_limit askedToo).1⟩

end Conduct

end Runbook
