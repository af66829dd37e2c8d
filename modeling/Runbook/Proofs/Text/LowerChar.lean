import Runbook.Proofs.Text.Lowercase
import Runbook.Text.Search

namespace Runbook.Text

/-!
# Characters in lower case

The lower-case forms in the table are in lower case themselves and no blanks.  So a character is
in lower case already, or it becomes small letters that stay as they are.  Only the capital
I with a dot becomes more than one.
-/

/-- A character that is in lower case already, wherever it stands. -/
def isSteady (c : Char) : Bool := lowerChar c == [c] && c.toNat != 0x3A3

/-- A lower-case form of another character: steady and no blank. -/
def isSmall (c : Char) : Bool := isSteady c && !isBlank c

variable {c d : Char}

theorem isSteady_iff : isSteady c = true ↔ lowerChar c = [c] ∧ c.toNat ≠ 0x3A3 := by
  simp [isSteady]

theorem isSmall_iff : isSmall c = true ↔ isSteady c = true ∧ isBlank c = false := by
  simp [isSmall]

section Table

/-- The lower-case forms that a run of capitals stands for. -/
def smallOf (run : Nat × Nat × Nat × Int) : List Char :=
  (List.range ((run.2.1 - run.1) / run.2.2.1 + 1)).map fun step =>
    Char.ofNat (((run.1 + step * run.2.2.1 : Nat) : Int) + run.2.2.2).toNat

theorem isSmall_of_mem_smallOf
    {run : Nat × Nat × Nat × Int}
    (isRun : run ∈ capitalRuns.toList)
    (isForm : c ∈ smallOf run) :
    isSmall c = true := by
  have allSmall : (capitalRuns.toList.all fun run => (smallOf run).all isSmall) = true := by
    decide +kernel
  exact List.all_eq_true.mp (List.all_eq_true.mp allSmall run isRun) c isForm

section Search

-- The table is left closed, so that the step of the search can be read off.
attribute [local irreducible] capitalRuns

theorem capitalRun?_succ (value low high fuel : Nat) :
    capitalRun? value low high (fuel + 1) =
      if low < high then
        match capitalRuns[(low + high) / 2]? with
        | none => none
        | some run =>
            if value < run.1 then capitalRun? value low ((low + high) / 2) fuel
            else if run.2.1 < value then capitalRun? value ((low + high) / 2 + 1) high fuel
            else some run
      else none := by
  rfl

end Search

/-- The run that is found holds the code point. -/
theorem mem_of_capitalRun?
    {value low high fuel : Nat}
    {run : Nat × Nat × Nat × Int}
    (isFound : capitalRun? value low high fuel = some run) :
    run ∈ capitalRuns.toList ∧ run.1 ≤ value ∧ value ≤ run.2.1 := by
  induction fuel generalizing low high with
  | zero =>
      cases isFound
  | succ fuel inductionHypothesis =>
      rw [capitalRun?_succ, Option.ite_none_right_eq_some] at isFound
      obtain ⟨-, isFound⟩ := isFound
      split at isFound
      case h_1 =>
        cases isFound
      case h_2 found isThere =>
        split at isFound
        case isTrue =>
          exact inductionHypothesis isFound
        case isFalse notBelow =>
          split at isFound
          case isTrue =>
            exact inductionHypothesis isFound
          case isFalse notAbove =>
            cases isFound
            have isListed : run ∈ capitalRuns.toList :=
              Array.mem_toList_iff.mpr (Array.mem_of_getElem? isThere)
            exact ⟨isListed, Nat.le_of_not_lt notBelow, Nat.le_of_not_lt notAbove⟩

/-- A capital of a run has its lower-case form among those of the run. -/
theorem mem_smallOf
    {first last distance value : Nat}
    {above : Int}
    (atLeast : first ≤ value)
    (atMost : value ≤ last)
    (divides : (value - first) % distance = 0) :
    Char.ofNat (value + above).toNat ∈ smallOf (first, last, distance, above) := by
  have isStep : (value - first) / distance * distance = value - first :=
    Nat.div_mul_cancel (Nat.dvd_of_mod_eq_zero divides)
  refine List.mem_map.mpr ⟨(value - first) / distance, ?_, ?_⟩
  · exact List.mem_range.mpr
      (Nat.lt_succ_of_le (Nat.div_le_div_right (Nat.sub_le_sub_right atMost first)))
  · dsimp only
    rw [isStep, Nat.add_sub_cancel' atLeast]

end Table

/-- The lower case of an ASCII character is itself or a small letter. -/
theorem toLower_cases (c : Char) : c.toLower = c ∨ isSmall c.toLower = true := by
  have ofCapitals :
      ((List.range 26).all fun n => isSmall (Char.ofNat (65 + n)).toLower) = true := by
    decide +kernel
  by_cases isCapital : 65 ≤ c.toNat ∧ c.toNat ≤ 90
  · have isLetter :=
      List.all_eq_true.mp ofCapitals (c.toNat - 65) (List.mem_range.mpr (by omega))
    rw [Nat.add_sub_cancel' isCapital.1, Char.ofNat_toNat] at isLetter
    exact Or.inr isLetter
  · refine Or.inl (dif_neg ?_)
    rintro ⟨atLeast, atMost⟩
    exact isCapital ⟨UInt32.le_iff_toNat_le.mp atLeast, UInt32.le_iff_toNat_le.mp atMost⟩

/-- A character is in lower case already, or its lower-case form is made of small letters. -/
theorem lowerChar_cases (c : Char) :
    lowerChar c = [c] ∨ lowerChar c ≠ [] ∧ ∀ d ∈ lowerChar c, isSmall d = true := by
  rw [lowerChar]
  split
  case isTrue =>
    rcases toLower_cases c with same | small
    · exact Or.inl (by rw [same])
    · exact Or.inr ⟨List.cons_ne_nil _ _, by simpa using small⟩
  case isFalse =>
    split
    case isTrue =>
      have bothSmall : (['i', Char.ofNat 0x307].all isSmall) = true := by
        decide +kernel
      exact Or.inr ⟨List.cons_ne_nil _ _, List.all_eq_true.mp bothSmall⟩
    case isFalse =>
      split
      case h_1 isRun =>
        obtain ⟨isListed, atLeast, atMost⟩ := mem_of_capitalRun? isRun
        split
        case isTrue divides =>
          have small := isSmall_of_mem_smallOf isListed (mem_smallOf atLeast atMost divides)
          exact Or.inr ⟨List.cons_ne_nil _ _, by simpa using small⟩
        case isFalse =>
          exact Or.inl rfl
      case h_2 =>
        exact Or.inl rfl

/-- What lower case makes of a character is steady, unless it is a capital sigma. -/
theorem isSteady_of_mem_lowerChar
    (notSigma : c.toNat ≠ 0x3A3)
    (isPart : d ∈ lowerChar c) :
    isSteady d = true := by
  rcases lowerChar_cases c with same | ⟨-, allSmall⟩
  · rw [same, List.mem_singleton] at isPart
    subst isPart
    exact isSteady_iff.mpr ⟨same, notSigma⟩
  · exact (isSmall_iff.mp (allSmall d isPart)).1

/-- Lower case makes no blank of a character that is none. -/
theorem not_isBlank_of_mem_lowerChar
    (notBlank : isBlank c = false)
    (isPart : d ∈ lowerChar c) :
    isBlank d = false := by
  rcases lowerChar_cases c with same | ⟨-, allSmall⟩
  · rw [same, List.mem_singleton] at isPart
    rwa [isPart]
  · exact (isSmall_iff.mp (allSmall d isPart)).2

theorem lowerChar_ne_nil (c : Char) : lowerChar c ≠ [] := by
  rcases lowerChar_cases c with same | ⟨notNil, -⟩
  · rw [same]
    exact List.cons_ne_nil _ _
  · exact notNil

/-- A blank is in lower case. -/
theorem isSteady_of_isBlank
    (blank : isBlank c = true) :
    isSteady c = true := by
  have allSteady : blanks.all isSteady = true := by
    decide +kernel
  exact List.all_eq_true.mp allSteady c (mem_blanks_of_isBlank blank)

/-- A character that has as many bytes in lower case becomes one character. -/
theorem exists_lowerChar_eq
    (sameLength : byteLength (lowerChar c) = c.utf8Size) :
    ∃ d, lowerChar c = [d] := by
  by_cases isDotted : c.toNat = 0x130
  · have isChar : c = Char.ofNat 0x130 := by
      rw [← isDotted, Char.ofNat_toNat]
    have longer : byteLength (lowerChar (Char.ofNat 0x130)) ≠ (Char.ofNat 0x130).utf8Size := by
      decide +kernel
    exact absurd (isChar ▸ sameLength) longer
  · rw [lowerChar, if_neg isDotted]
    split
    · exact ⟨_, rfl⟩
    · split
      · split <;> exact ⟨_, rfl⟩
      · exact ⟨_, rfl⟩

end Runbook.Text
