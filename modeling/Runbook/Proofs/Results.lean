namespace Runbook

/-!
# Results that may fail

What is known of the steps of a computation that has given a result.
-/

section Steps

variable {ε α β : Type} {first : Except ε α} {second other : α → Except ε β} {value : β}

/-- A result of two steps comes from a result of the first. -/
theorem exists_of_bind
    (isOk : first >>= second = .ok value) :
    ∃ between, first = .ok between ∧ second between = .ok value := by
  cases first with
  | error failure =>
      cases isOk
  | ok between =>
      exact ⟨between, rfl, isOk⟩

theorem exists_of_map
    {f : α → β}
    (isOk : first.map f = .ok value) :
    ∃ between, first = .ok between ∧ f between = value := by
  cases first with
  | error failure =>
      cases isOk
  | ok between =>
      exact ⟨between, rfl, Except.ok.inj isOk⟩

theorem eq_ok_of_toOption
    {between : α}
    (isThere : first.toOption = some between) :
    first = .ok between := by
  cases first with
  | error failure =>
      cases isThere
  | ok between =>
      cases isThere
      rfl

/-- A second step matters for results of the first only. -/
theorem bind_congr_of_ok
    (same : ∀ between, first = .ok between → second between = other between) :
    first >>= second = first >>= other := by
  cases first with
  | error failure =>
      rfl
  | ok between =>
      exact same between rfl

end Steps

end Runbook
