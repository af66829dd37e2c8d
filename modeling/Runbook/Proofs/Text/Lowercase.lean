import Mathlib.Data.List.Basic
import Runbook.Text.Blank
import Runbook.Text.Lowercase

namespace Runbook.Text

/-!
# Lower case of a text in parts

A text is not put in lower case letter by letter: what becomes of a capital sigma depends on
the letters around it.  But it is looked no further than a character that has no case and is
not looked past, such as a blank.  A text with such a character in it is put in lower case
part by part, and what is put behind it changes nothing before it.
-/

/-- A character that has no case and that case does not look past. -/
def endsCase (c : Char) : Bool := !isSkipped c && !isCased c

variable {text near far first second : List Char} {c : Char}

theorem meetsCased_cons
    (c : Char)
    (text : List Char) :
    meetsCased (c :: text) = if isSkipped c then meetsCased text else isCased c := by
  cases skipped : isSkipped c with
  | true =>
      rw [meetsCased, List.dropWhile_cons_of_pos skipped, if_pos rfl, meetsCased]
  | false =>
      rw [meetsCased, List.dropWhile_cons_of_neg (by simp [skipped]), if_neg Bool.false_ne_true]

/-- A character that ends case hides what is behind it. -/
theorem meetsCased_append
    (hides : ∀ c ∈ far.head?, endsCase c = true)
    (near : List Char) :
    meetsCased (near ++ far) = meetsCased near := by
  induction near with
  | nil =>
      cases far with
      | nil =>
          rfl
      | cons c far =>
          have ends := hides c rfl
          rw [endsCase, Bool.and_eq_true, Bool.not_eq_true', Bool.not_eq_true'] at ends
          rw [List.nil_append, meetsCased_cons, ends.1, ends.2]
          rfl
  | cons d near inductionHypothesis =>
      rw [List.cons_append, meetsCased_cons, meetsCased_cons, inductionHypothesis]

/-- The capital sigma has case. -/
theorem ne_sigma_of_endsCase
    (ends : endsCase c = true) :
    c.toNat ≠ 0x3A3 := by
  intro isSigma
  have isListed : inTable casedTable 0x3A3 = true := by
    decide +kernel
  have isCapital : isCased c = true := by
    rw [isCased, isSigma, if_neg (by decide), isListed]
  rw [endsCase, isCapital] at ends
  simp at ends

/-- What stands far before a text does not matter for it. -/
theorem lowerFrom_near
    (hides : ∀ c ∈ far.head?, endsCase c = true)
    (near text : List Char) :
    lowerFrom (near ++ far) text = lowerFrom near text := by
  induction text generalizing near with
  | nil =>
      rfl
  | cons d text inductionHypothesis =>
      rw [lowerFrom, lowerFrom, meetsCased_append hides, ← List.cons_append, inductionHypothesis]

/-- What stands far behind a text does not matter for it. -/
theorem lowerFrom_append
    (hides : ∀ c ∈ second.head?, endsCase c = true)
    (before first : List Char) :
    lowerFrom before (first ++ second) =
      lowerFrom before first ++ lowerFrom (first.reverse ++ before) second := by
  induction first generalizing before with
  | nil =>
      rfl
  | cons d first inductionHypothesis =>
      rw [List.cons_append, lowerFrom, lowerFrom, meetsCased_append hides, inductionHypothesis,
        List.reverse_cons, List.append_assoc, List.singleton_append]
      split
      · rfl
      · rw [List.append_assoc]

/-- A text is put in lower case before and behind a character that ends case. -/
theorem lower_append_cons
    (ends : endsCase c = true)
    (first second : List Char) :
    lower (first ++ c :: second) = lower first ++ lowerChar c ++ lower second := by
  have hidesRest : ∀ d ∈ (c :: second).head?, endsCase d = true := by
    rintro d ⟨⟩
    exact ends
  have hidesStart : ∀ d ∈ (c :: (first.reverse ++ [])).head?, endsCase d = true := by
    rintro d ⟨⟩
    exact ends
  have restAlone := lowerFrom_near hidesStart [] second
  rw [List.nil_append] at restAlone
  rw [lower, lowerFrom_append hidesRest, lowerFrom, if_neg (ne_sigma_of_endsCase ends), restAlone,
    List.append_assoc]
  rfl

/-- A text whose second part begins with a character that ends case. -/
theorem lower_append_of_head
    (ends : ∀ c ∈ second.head?, endsCase c = true)
    (first : List Char) :
    lower (first ++ second) = lower first ++ lower second := by
  cases second with
  | nil =>
      simp [lower, lowerFrom]
  | cons c second =>
      have alone := lower_append_cons (ends c rfl) [] second
      rw [List.nil_append] at alone
      rw [lower_append_cons (ends c rfl), alone, List.append_assoc]
      rfl

/-- A text whose first part ends with a character that ends case. -/
theorem lower_append_of_last
    (ends : ∀ c ∈ first.getLast?, endsCase c = true)
    (second : List Char) :
    lower (first ++ second) = lower first ++ lower second := by
  rcases List.eq_nil_or_concat first with rfl | ⟨before, c, rfl⟩
  · rfl
  · have isEnd : endsCase c = true := ends c (by simp)
    rw [List.concat_eq_append, List.append_assoc, List.singleton_append, lower_append_cons isEnd,
      lower_append_cons isEnd]
    simp [lower, lowerFrom]

/-- The blanks. -/
def blanks : List Char :=
  ['\t', '\n', '\x0b', '\x0c', '\r', ' ', '\u0085', '\u00a0', '\u1680', '\u2000', '\u2001',
    '\u2002', '\u2003', '\u2004', '\u2005', '\u2006', '\u2007', '\u2008', '\u2009', '\u200a',
    '\u2028', '\u2029', '\u202f', '\u205f', '\u3000']

theorem mem_blanks_of_isBlank
    (blank : isBlank c = true) :
    c ∈ blanks := by
  have isPoint : c.toNat ∈ blanks.map Char.toNat := by
    simp [isBlank] at blank
    simp [blanks]
    omega
  exact (List.mem_map_of_injective fun _ _ => Char.toNat_inj.mp).mp isPoint

/-- Blanks have no case, and case does not look past them. -/
theorem endsCase_of_isBlank
    (blank : isBlank c = true) :
    endsCase c = true := by
  have allEnd : blanks.all endsCase = true := by
    decide +kernel
  exact List.all_eq_true.mp allEnd c (mem_blanks_of_isBlank blank)

section Ascii

/-- Only the case of ASCII letters is changed, and it does not matter for lower case. -/
theorem case_toLower (c : Char) :
    isSkipped c.toLower = isSkipped c ∧ isCased c.toLower = isCased c ∧
      lowerChar c.toLower = lowerChar c ∧ (c.toLower.toNat = 0x3A3 ↔ c.toNat = 0x3A3) := by
  have ofCapitals : ∀ n ∈ List.range 26,
      let c := Char.ofNat (65 + n)
      isSkipped c.toLower = isSkipped c ∧ isCased c.toLower = isCased c ∧
        lowerChar c.toLower = lowerChar c ∧ (c.toLower.toNat = 0x3A3 ↔ c.toNat = 0x3A3) := by
    decide +kernel
  by_cases isCapital : 65 ≤ c.toNat ∧ c.toNat ≤ 90
  · have isLetter := ofCapitals (c.toNat - 65) (List.mem_range.mpr (by omega))
    rwa [Nat.add_sub_cancel' isCapital.1, Char.ofNat_toNat] at isLetter
  · have same : c.toLower = c := by
      refine dif_neg ?_
      rintro ⟨atLeast, atMost⟩
      exact isCapital ⟨UInt32.le_iff_toNat_le.mp atLeast, UInt32.le_iff_toNat_le.mp atMost⟩
    rw [same]
    exact ⟨rfl, rfl, rfl, Iff.rfl⟩

theorem meetsCased_map_toLower (text : List Char) :
    meetsCased (text.map Char.toLower) = meetsCased text := by
  induction text with
  | nil =>
      rfl
  | cons c text inductionHypothesis =>
      obtain ⟨sameSkipped, sameCased, -, -⟩ := case_toLower c
      rw [List.map_cons, meetsCased_cons, meetsCased_cons, sameSkipped, sameCased,
        inductionHypothesis]

theorem lowerFrom_map_toLower
    (before text : List Char) :
    lowerFrom (before.map Char.toLower) (text.map Char.toLower) = lowerFrom before text := by
  induction text generalizing before with
  | nil =>
      rfl
  | cons c text inductionHypothesis =>
      obtain ⟨-, -, sameChar, sameSigma⟩ := case_toLower c
      rw [List.map_cons, lowerFrom, lowerFrom, meetsCased_map_toLower, meetsCased_map_toLower,
        sameChar, ← List.map_cons, inductionHypothesis]
      simp only [sameSigma]

/-- Texts that differ in the case of ASCII letters only are the same in lower case. -/
theorem lower_congr
    {text other : List Char}
    (same : text.map Char.toLower = other.map Char.toLower) :
    lower text = lower other := by
  have ofText := lowerFrom_map_toLower [] text
  have ofOther := lowerFrom_map_toLower [] other
  rw [lower, lower, ← ofText, ← ofOther, same]

/-- An ASCII character in front of a text is put in lower case on its own. -/
theorem lower_cons_of_ascii
    (isAscii : c.toNat < 128)
    (text : List Char) :
    lower (c :: text) = c.toLower :: lowerFrom [c] text := by
  rw [lower, lowerFrom, if_neg (by omega), lowerChar, if_pos isAscii, List.singleton_append]

end Ascii

end Runbook.Text
