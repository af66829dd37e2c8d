import Mathlib.Order.Bounds.Basic
import Runbook.Text.Cut

namespace Runbook.Text

/-!
# Where a text is cut

A cut at a number of bytes is made at the last boundary between two characters that is not behind
it.  So it is moved by three bytes at most, and a piece of the text that ends before the cut
is not cut off.
-/

/-- So many bytes are those of the first characters of a text. -/
def IsBoundary (text : List Char) (bytes : Nat) : Prop :=
  ∃ before after, text = before ++ after ∧ byteLength before = bytes

variable {text before after piece : List Char} {bytes : Nat}

@[simp]
theorem byteLength_append (first second : List Char) :
    byteLength (first ++ second) = byteLength first + byteLength second := by
  induction first with
  | nil =>
      simp [byteLength]
  | cons c first inductionHypothesis =>
      rw [List.cons_append, byteLength, byteLength, inductionHypothesis, Nat.add_assoc]

theorem byteLength_eq_zero_iff : byteLength text = 0 ↔ text = [] := by
  cases text with
  | nil =>
      simp [byteLength]
  | cons c text =>
      have sizePos := c.utf8Size_pos
      simp only [byteLength, List.cons_ne_nil, iff_false]
      omega

/-- A text has at least the bytes of what is left of it when characters are taken out. -/
theorem byteLength_le_of_sublist
    {shorter : List Char}
    (isPart : shorter.Sublist text) :
    byteLength shorter ≤ byteLength text := by
  induction isPart with
  | slnil =>
      exact Nat.le_refl _
  | cons c _ inductionHypothesis =>
      exact Nat.le_trans inductionHypothesis (Nat.le_add_left _ _)
  | cons_cons c _ inductionHypothesis =>
      exact Nat.add_le_add_left inductionHypothesis _

/-- Of two starts of a text, the one with no more bytes is a start of the other. -/
theorem prefix_of_byteLength_le
    {first second : List Char}
    (firstStarts : first <+: text)
    (secondStarts : second <+: text)
    (notLonger : byteLength first ≤ byteLength second) :
    first <+: second := by
  rcases List.prefix_or_prefix_of_prefix firstStarts secondStarts with isPrefix | ⟨more, rfl⟩
  · exact isPrefix
  · rw [byteLength_append] at notLonger
    have isNil : more = [] := byteLength_eq_zero_iff.mp (by omega)
    simp [isNil]

/-- A start of a text that fits into the bytes is taken as a whole. -/
theorem prefix_takeBytes
    (starts : piece <+: text)
    (fits : byteLength piece ≤ bytes) :
    piece <+: takeBytes bytes text := by
  obtain ⟨rest, rfl⟩ := starts
  induction piece generalizing bytes with
  | nil =>
      exact List.nil_prefix
  | cons c piece inductionHypothesis =>
      rw [byteLength] at fits
      rw [List.cons_append, takeBytes, if_pos (Nat.le_trans (Nat.le_add_right _ _) fits)]
      exact (List.prefix_cons_inj c).mpr (inductionHypothesis (by omega))

/-- Behind a start of a text the cut is made at the last boundary that it reaches. -/
theorem isGreatest_takeBytes_append (bytes : Nat) (before after : List Char) :
    IsGreatest
      {boundary | IsBoundary (before ++ after) boundary ∧ boundary ≤ byteLength before + bytes}
      (byteLength (before ++ takeBytes bytes after)) := by
  have isSplit := takeBytes_append_dropBytes bytes after
  constructor
  · refine ⟨⟨before ++ takeBytes bytes after, dropBytes bytes after, ?_, rfl⟩, ?_⟩
    · rw [List.append_assoc, isSplit]
    · rw [byteLength_append]
      exact Nat.add_le_add_left (byteLength_takeBytes_le bytes after) _
  · rintro _ ⟨⟨first, second, isText, rfl⟩, within⟩
    rw [byteLength_append]
    rcases List.append_eq_append_iff.mp isText with ⟨piece, rfl, isAfter⟩ | ⟨more, isBefore, -⟩
    · rw [byteLength_append] at within ⊢
      have isPart : piece <+: takeBytes bytes after :=
        prefix_takeBytes ⟨second, isAfter.symm⟩ (Nat.le_of_add_le_add_left within)
      exact Nat.add_le_add_left (byteLength_le_of_sublist isPart.sublist) _
    · rw [isBefore, byteLength_append]
      omega

/-- The cut is made at the last boundary that it reaches. -/
theorem isGreatest_takeBytes (bytes : Nat) (text : List Char) :
    IsGreatest {boundary | IsBoundary text boundary ∧ boundary ≤ bytes}
      (byteLength (takeBytes bytes text)) := by
  have behindNothing := isGreatest_takeBytes_append bytes [] text
  simpa [byteLength] using behindNothing

/-- A cut that leaves something behind is moved by three bytes at most. -/
theorem lt_byteLength_takeBytes
    (someLeft : dropBytes bytes text ≠ []) :
    bytes < byteLength (takeBytes bytes text) + 4 := by
  induction text generalizing bytes with
  | nil =>
      exact absurd rfl someLeft
  | cons c text inductionHypothesis =>
      rw [dropBytes] at someLeft
      rw [takeBytes]
      split
      case isTrue fits =>
        rw [if_pos fits] at someLeft
        have later := inductionHypothesis someLeft
        rw [byteLength]
        omega
      case isFalse tooLong =>
        have atMostFour := c.utf8Size_le_four
        rw [byteLength]
        omega

/-- So the last boundary is near, unless it is the end of the text. -/
theorem lt_add_four_of_isGreatest
    {boundary : Nat}
    (isLast : IsGreatest {boundary | IsBoundary text boundary ∧ boundary ≤ bytes} boundary)
    (notEnd : boundary ≠ byteLength text) :
    bytes < boundary + 4 := by
  have isCut : boundary = byteLength (takeBytes bytes text) :=
    isLast.unique (isGreatest_takeBytes bytes text)
  have isSplit := congrArg byteLength (takeBytes_append_dropBytes bytes text)
  rw [byteLength_append] at isSplit
  have someLeft : dropBytes bytes text ≠ [] := by
    intro isNil
    rw [byteLength_eq_zero_iff.mpr isNil] at isSplit
    omega
  rw [isCut]
  exact lt_byteLength_takeBytes someLeft

end Runbook.Text
