import Runbook.Batch.Schedule

namespace Runbook

/-!
# What tallies count

Raising and lowering change the count of one id by one and leave all other counts alone,
so the tally of a list of ids counts how often each id occurs.
-/

namespace Tally

/-- The count in front of the entries that follow. -/
theorem count_cons
    (entry : String × Nat)
    (rest : List (String × Nat))
    (id : String) :
    count ⟨entry :: rest⟩ id =
      if entry.1 = id then entry.2 else count ⟨rest⟩ id := by
  by_cases same : entry.1 = id
  · simp [count, same]
  · simp [count, same]

/-- Raising adds one for its own id only. -/
theorem count_raise
    (tally : Tally)
    (id other : String) :
    (tally.raise id).count other =
      tally.count other + if id = other then 1 else 0 := by
  obtain ⟨counts⟩ := tally
  change count ⟨raiseIn id counts⟩ other = _
  induction counts with
  | nil =>
      rw [raiseIn, count_cons]
      simp [count]
  | cons entry rest inductionHypothesis =>
      rw [raiseIn]
      by_cases atEntry : entry.1 = id
      · rw [if_pos atEntry, count_cons, count_cons, atEntry]
        by_cases same : id = other
        · simp [same]
        · simp [same]
      · rw [if_neg atEntry, count_cons, count_cons, inductionHypothesis]
        by_cases atOther : entry.1 = other
        · have different : id ≠ other := by
            rw [← atOther]
            exact Ne.symm atEntry
          simp [atOther, different]
        · simp [atOther]

/-- Lowering takes one away for its own id only. -/
theorem count_lower
    (tally : Tally)
    (id other : String) :
    (tally.lower id).count other =
      tally.count other - if id = other then 1 else 0 := by
  obtain ⟨counts⟩ := tally
  change count ⟨lowerIn id counts⟩ other = _
  induction counts with
  | nil =>
      simp [lowerIn, count]
  | cons entry rest inductionHypothesis =>
      rw [lowerIn]
      by_cases atEntry : entry.1 = id
      · rw [if_pos atEntry, count_cons, count_cons, atEntry]
        by_cases same : id = other
        · simp [same]
        · simp [same]
      · rw [if_neg atEntry, count_cons, count_cons, inductionHypothesis]
        by_cases atOther : entry.1 = other
        · have different : id ≠ other := by
            rw [← atOther]
            exact Ne.symm atEntry
          simp [atOther, different]
        · simp [atOther]

/-- The tally of a list counts how often an id occurs in it. -/
theorem count_ofIds
    (ids : List String)
    (id : String) :
    (ofIds ids).count id = ids.count id := by
  have general :
      ∀ tally : Tally,
        (ids.foldl raise tally).count id = tally.count id + ids.count id := by
    induction ids with
    | nil =>
        simp
    | cons head rest inductionHypothesis =>
        intro tally
        rw [List.foldl_cons, inductionHypothesis, count_raise, List.count_cons]
        simp only [beq_iff_eq]
        omega
  simpa [ofIds, count] using general {}

end Tally

end Runbook
