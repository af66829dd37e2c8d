namespace Runbook

/-!
# Histories

A history is the list of what has happened, in that order, and grows at its end.
-/

namespace History

variable {α : Type}

/-- In a history that has grown, an event is one of the old ones or one of the new. -/
theorem split_append
    {history new earlier later : List α}
    {event : α}
    (isSplit : history ++ new = earlier ++ event :: later) :
    (∃ rest, history = earlier ++ event :: rest ∧ later = rest ++ new) ∨
      ∃ between, earlier = history ++ between ∧ new = between ++ event :: later := by
  rcases List.append_eq_append_iff.mp isSplit with
    ⟨between, isEarlier, isNew⟩ | ⟨between, isHistory, isRest⟩
  · exact Or.inr ⟨between, isEarlier, isNew⟩
  · cases between with
    | nil =>
        rw [List.append_nil] at isHistory
        exact Or.inr ⟨[], by rw [isHistory, List.append_nil], isRest.symm⟩
    | cons head rest =>
        obtain ⟨isHead, isLater⟩ := List.cons.inj isRest
        exact Or.inl ⟨rest, by rw [isHistory, isHead], isLater⟩

/-- In a history that has grown by one event, an event is one of the old ones or the new. -/
theorem split_concat
    {history earlier later : List α}
    {event last : α}
    (isSplit : history ++ [last] = earlier ++ event :: later) :
    (∃ between, history = earlier ++ event :: between ∧ later = between ++ [last]) ∨
      earlier = history ∧ event = last ∧ later = [] := by
  rcases split_append isSplit with isOld | ⟨between, isEarlier, isNew⟩
  · exact Or.inl isOld
  · rcases List.singleton_eq_append_iff.mp isNew with ⟨rfl, isLast⟩ | ⟨_, isNil⟩
    · obtain ⟨isEvent, isNil⟩ := List.cons.inj isLast
      exact Or.inr ⟨by rw [isEarlier, List.append_nil], isEvent, isNil⟩
    · cases isNil

/-- What begins at an event that is not in the first part of a history is in the second. -/
theorem suffix_of_not_mem
    {first second rest : List α}
    {event : α}
    (isAbsent : event ∉ first)
    (isSuffix : event :: rest <:+ first ++ second) :
    event :: rest <:+ second := by
  obtain ⟨earlier, isSplit⟩ := isSuffix
  rcases split_append isSplit.symm with ⟨between, isFirst, -⟩ | ⟨between, -, isSecond⟩
  · exact absurd (by rw [isFirst]; simp) isAbsent
  · exact ⟨between, isSecond.symm⟩

/-- Do something, and write down what came of it. -/
def noting {σ β δ : Type} (action : σ → β × σ) (note : β → δ) (state : σ × List δ) :
    β × σ × List δ :=
  ((action state.1).1, (action state.1).2, state.2 ++ [note (action state.1).1])

end History

end Runbook
