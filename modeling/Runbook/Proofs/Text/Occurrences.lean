import Mathlib.Order.Bounds.Basic
import Runbook.Proofs.Text.Parts

namespace Runbook.Text

/-!
# Occurrences that do not overlap

The occurrences of a text are counted from the left, each behind the one before it.  No other
choice of occurrences that do not overlap holds more of them: the first one that is counted
ends no later than the first one of any choice.
-/

/-- A text holds so many occurrences of another, none of which overlap. -/
inductive Holds (wanted : List Char) : List Char → Nat → Prop where
  | none
      (text : List Char) :
      Holds wanted text 0
  | more
      {after : List Char}
      {count : Nat}
      (before : List Char)
      (behind : Holds wanted after count) :
      Holds wanted (before ++ wanted ++ after) (count + 1)

variable {wanted text : List Char} {count : Nat}

/-- What a text holds is held by a text that ends with it. -/
theorem Holds.of_suffix
    {shorter : List Char}
    (holds : Holds wanted shorter count)
    (isSuffix : shorter <:+ text) :
    Holds wanted text count := by
  obtain ⟨gap, rfl⟩ := isSuffix
  cases holds with
  | none =>
      exact .none _
  | more before behind =>
      rw [← List.append_assoc, ← List.append_assoc]
      exact .more (gap ++ before) behind

theorem countIn_of_none
    (notThere : splitFirst? wanted text = none) :
    countIn wanted text = 0 := by
  rw [countIn]
  split
  · rfl
  · split
    · rfl
    · next isSplit =>
        rw [notThere] at isSplit
        cases isSplit

theorem countIn_of_split
    {first second : List Char}
    (someWanted : wanted ≠ [])
    (isSplit : splitFirst? wanted text = some (first, second)) :
    countIn wanted text = countIn wanted second + 1 := by
  rw [countIn, if_neg someWanted]
  split
  · next notThere =>
      rw [isSplit] at notThere
      cases notThere
  · next parts isParts =>
      rw [isSplit] at isParts
      cases isParts
      exact Nat.add_comm 1 _

/-- A text has no occurrence, or what holds of it follows from what is behind the first one. -/
theorem occurrence_induction
    {motive : List Char → Prop}
    (someWanted : wanted ≠ [])
    (none : ∀ text, splitFirst? wanted text = none → motive text)
    (more : ∀ before after,
      splitFirst? wanted (before ++ wanted ++ after) = some (before, after) →
        motive after → motive (before ++ wanted ++ after))
    (text : List Char) :
    motive text := by
  induction isLength : text.length using Nat.strongRecOn generalizing text with
  | ind length inductionHypothesis =>
      subst isLength
      cases isSplit : splitFirst? wanted text with
      | none =>
          exact none text isSplit
      | some parts =>
          obtain ⟨before, after⟩ := parts
          obtain rfl := (splitFirst?_eq_some isSplit).1
          have wantedPos : 0 < wanted.length := List.length_pos_iff.mpr someWanted
          have isShorter : after.length < (before ++ wanted ++ after).length := by
            rw [List.length_append, List.length_append]
            omega
          exact more before after isSplit (inductionHypothesis _ isShorter after rfl)

/-- The occurrences that are counted do not overlap. -/
theorem holds_countIn
    (someWanted : wanted ≠ [])
    (text : List Char) :
    Holds wanted text (countIn wanted text) := by
  induction text using occurrence_induction someWanted with
  | none text notThere =>
      rw [countIn_of_none notThere]
      exact .none text
  | more before after isSplit behind =>
      rw [countIn_of_split someWanted isSplit]
      exact .more before behind

/-- No more occurrences that do not overlap are held than are counted. -/
theorem Holds.le_countIn
    (someWanted : wanted ≠ [])
    (holds : Holds wanted text count) :
    count ≤ countIn wanted text := by
  induction count generalizing text with
  | zero =>
      exact Nat.zero_le _
  | succ count inductionHypothesis =>
      cases holds with
      | @more after _ before behind =>
          cases isSplit : splitFirst? wanted (before ++ wanted ++ after) with
          | none =>
              exact absurd ⟨before, after, rfl⟩ (splitFirst?_eq_none_iff.mp isSplit)
          | some parts =>
              obtain ⟨first, second⟩ := parts
              obtain ⟨isText, isFirst⟩ := splitFirst?_eq_some isSplit
              -- What is behind the first occurrence ends with what is behind any other.
              have isSuffix : after <:+ second := by
                have afterSuffix : after <:+ before ++ wanted ++ after := List.suffix_append _ _
                have secondSuffix : second <:+ before ++ wanted ++ after := by
                  rw [isText]
                  exact List.suffix_append _ _
                refine List.suffix_of_suffix_length_le afterSuffix secondSuffix ?_
                have notLater := isFirst before after rfl
                have sameLength := congrArg List.length isText
                simp only [List.length_append] at sameLength
                omega
              rw [countIn_of_split someWanted isSplit]
              exact Nat.succ_le_succ (inductionHypothesis (behind.of_suffix isSuffix))

/-- The number of occurrences is the greatest number of them that do not overlap. -/
theorem isGreatest_countIn
    (someWanted : wanted ≠ [])
    (text : List Char) :
    IsGreatest {count | Holds wanted text count} (countIn wanted text) :=
  ⟨holds_countIn someWanted text, fun _ holds => holds.le_countIn someWanted⟩

/-- A text that occurs is counted at least once. -/
theorem countIn_pos
    (someWanted : wanted ≠ [])
    (occurs : wanted <:+: text) :
    0 < countIn wanted text := by
  obtain ⟨before, after, rfl⟩ := occurs
  exact (Holds.more before (.none after)).le_countIn someWanted

section Replacement

variable {new : List Char}

theorem replaceIn_of_none
    (notThere : splitFirst? wanted text = none) :
    replaceIn wanted new text = text := by
  rw [replaceIn]
  split
  · rfl
  · split
    · rfl
    · next isSplit =>
        rw [notThere] at isSplit
        cases isSplit

theorem replaceIn_of_split
    {first second : List Char}
    (someWanted : wanted ≠ [])
    (isSplit : splitFirst? wanted text = some (first, second)) :
    replaceIn wanted new text = first ++ new ++ replaceIn wanted new second := by
  rw [replaceIn, if_neg someWanted]
  split
  · next notThere =>
      rw [isSplit] at notThere
      cases notThere
  · next parts isParts =>
      rw [isSplit] at isParts
      cases isParts
      rfl

/-- A text is not made longer by putting less in the place of what is replaced. -/
theorem replaceIn_sublist
    (someWanted : wanted ≠ [])
    (isLess : new.Sublist wanted)
    (text : List Char) :
    (replaceIn wanted new text).Sublist text := by
  induction text using occurrence_induction someWanted with
  | none text notThere =>
      rw [replaceIn_of_none notThere]
  | more before after isSplit behind =>
      rw [replaceIn_of_split someWanted isSplit]
      exact ((List.Sublist.refl before).append isLess).append behind

end Replacement

end Runbook.Text
