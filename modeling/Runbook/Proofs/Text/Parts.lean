import Mathlib.Data.List.Infix
import Mathlib.Data.List.TakeWhile
import Runbook.Text.Search

namespace Runbook.Text

/-!
# Parts of a text

What the ends and the pieces of a text are.  Trimming takes nothing from a piece whose own
ends are not blank, whatever stands around it.  The first occurrence of a mark splits a text
so that no occurrence starts earlier, and where a mark cannot reach over the ends of a piece,
it occurs around the piece only if it occurs in it.
-/

section Trim

variable {text : List Char}

/-- What is left of a text without the blanks before it is a part of it. -/
theorem trimStart_sublist (text : List Char) : (trimStart text).Sublist text :=
  List.dropWhile_sublist isBlank

/-- What is left of a text without the blanks behind it is a part of it. -/
theorem trimEnd_sublist (text : List Char) : (trimEnd text).Sublist text := by
  have reversed : (text.reverse.dropWhile isBlank).Sublist text.reverse :=
    List.dropWhile_sublist isBlank
  simpa [trimEnd] using reversed.reverse

/-- What is left of a text without the blanks around it is a part of it. -/
theorem trim_sublist (text : List Char) : (trim text).Sublist text :=
  (trimEnd_sublist _).trans (trimStart_sublist text)

/-- Both ends of a text are there and not blank. -/
structure HasEnds (text : List Char) : Prop where
  first :
    ∃ c ∈ text.head?, isBlank c = false
  last :
    ∃ c ∈ text.getLast?, isBlank c = false

theorem HasEnds.reverse
    (ends : HasEnds text) :
    HasEnds text.reverse :=
  ⟨by simpa using ends.last, by simpa using ends.first⟩

/-- Without blanks behind it a text keeps ends. -/
theorem HasEnds.append
    (ends : HasEnds text)
    {more : List Char}
    (noBlank : ∀ c ∈ more, isBlank c = false) :
    HasEnds (text ++ more) := by
  obtain ⟨first, isFirst, firstNotBlank⟩ := ends.first
  obtain ⟨last, isLast, lastNotBlank⟩ := ends.last
  refine ⟨⟨first, by simp [Option.mem_def.mp isFirst], firstNotBlank⟩, ?_⟩
  cases isEnd : more.getLast? with
  | none =>
      exact ⟨last, by simpa [isEnd] using isLast, lastNotBlank⟩
  | some c =>
      exact ⟨c, by simp [isEnd], noBlank c (List.mem_of_getLast? isEnd)⟩

/-- The first character behind the blanks before a text is none. -/
theorem not_isBlank_of_head?_trimStart
    {c : Char}
    (isFirst : c ∈ (trimStart text).head?) :
    isBlank c = false := by
  have notBlank := List.head?_dropWhile_not isBlank text
  rw [trimStart] at isFirst
  rw [Option.mem_def.mp isFirst] at notBlank
  exact notBlank

/-- Nothing is left of blanks, and of blanks only. -/
theorem trim_eq_nil_iff : trim text = [] ↔ text.all isBlank = true := by
  rw [List.all_eq_true]
  constructor
  · intro isNil
    have noneBehind : ∀ c ∈ trimStart text, isBlank c = true := by
      rw [trim, trimEnd, List.reverse_eq_nil_iff, List.dropWhile_eq_nil_iff] at isNil
      simpa using isNil
    have noneLeft : trimStart text = [] := by
      rw [← List.head?_eq_none_iff, Option.eq_none_iff_forall_not_mem]
      intro c isFirst
      have isBlank := noneBehind c (List.mem_of_mem_head? isFirst)
      rw [not_isBlank_of_head?_trimStart isFirst] at isBlank
      cases isBlank
    exact List.dropWhile_eq_nil_iff.mp noneLeft
  · intro allBlank
    have noneLeft : trimStart text = [] := List.dropWhile_eq_nil_iff.mpr allBlank
    rw [trim, noneLeft]
    rfl

/-- What is left of a text without the blanks around it has ends, if anything is. -/
theorem hasEnds_trim (someLeft : trim text ≠ []) : HasEnds (trim text) := by
  have isLeading : trim text <+: trimStart text := by
    rw [trim, trimEnd, ← List.reverse_suffix, List.reverse_reverse]
    exact List.dropWhile_suffix isBlank
  obtain ⟨first, rest, isTrim⟩ := List.exists_cons_of_ne_nil someLeft
  refine ⟨⟨first, by rw [isTrim]; rfl, ?_⟩, ?_⟩
  · obtain ⟨more, isText⟩ := isLeading
    have isFirst : first ∈ (trimStart text).head? := by
      rw [← isText, isTrim]
      rfl
    exact not_isBlank_of_head?_trimStart isFirst
  · have isLast : (trim text).getLast? = (trimStart (trimStart text).reverse).head? := by
      simp [trim, trimEnd, trimStart]
    cases isThere : (trim text).getLast? with
    | none =>
        exact absurd (List.getLast?_eq_none_iff.mp isThere) someLeft
    | some last =>
        exact ⟨last, rfl, not_isBlank_of_head?_trimStart (isLast ▸ isThere)⟩

/-- The blanks before a text are those before it in a longer one. -/
theorem trimStart_append
    (ends : HasEnds text)
    (before after : List Char) :
    trimStart (before ++ text ++ after) = trimStart before ++ text ++ after := by
  obtain ⟨c, isFirst, notBlank⟩ := ends.first
  obtain ⟨rest, rfl⟩ := List.head?_eq_some_iff.mp isFirst
  rw [trimStart, List.append_assoc, List.dropWhile_append]
  split
  case isTrue allDropped =>
    have isNil : trimStart before = [] := List.isEmpty_iff.mp allDropped
    simp [isNil, notBlank]
  case isFalse =>
    simp [trimStart]

/-- The blanks behind a text are those behind it in a longer one. -/
theorem trimEnd_append
    (ends : HasEnds text)
    (before after : List Char) :
    trimEnd (before ++ text ++ after) = before ++ text ++ trimEnd after := by
  have reversed := trimStart_append ends.reverse after.reverse before.reverse
  rw [trimEnd, List.reverse_append, List.reverse_append, ← List.append_assoc]
  rw [trimStart] at reversed
  rw [reversed]
  simp [trimEnd, trimStart]

/-- Trimming takes away only what stands around a text whose ends are not blank. -/
theorem trim_append
    (ends : HasEnds text)
    (before after : List Char) :
    trim (before ++ text ++ after) = trimStart before ++ text ++ trimEnd after := by
  rw [trim, trimStart_append ends, trimEnd_append ends]

/-- A text whose ends are not blank stays as it is. -/
theorem trim_eq_self (ends : HasEnds text) : trim text = text := by
  simpa [trimStart, trimEnd] using trim_append ends [] []

/-- Around what is left of a text without the blanks around it there are blanks. -/
theorem exists_around_trim (text : List Char) :
    ∃ lead trail, text = lead ++ trim text ++ trail ∧
      (∀ c ∈ lead, isBlank c = true) ∧ ∀ c ∈ trail, isBlank c = true := by
  refine ⟨text.takeWhile isBlank, ((trimStart text).reverse.takeWhile isBlank).reverse, ?_,
    fun c => List.mem_takeWhile_imp,
    fun c member => List.mem_takeWhile_imp (List.mem_reverse.mp member)⟩
  rw [trim, trimEnd, List.append_assoc, ← List.reverse_append, List.takeWhile_append_dropWhile,
    List.reverse_reverse, trimStart, List.takeWhile_append_dropWhile]

end Trim

section Split

/-- A text after another is what has to be put behind it. -/
theorem after?_eq_some_iff
    {start text tail : List Char} :
    after? start text = some tail ↔ text = start ++ tail := by
  induction start generalizing text with
  | nil =>
      simp [after?]
  | cons c start inductionHypothesis =>
      cases text with
      | nil =>
          simp [after?]
      | cons d text =>
          rw [after?, List.cons_append, List.cons.injEq]
          split
          case isTrue same =>
            rw [inductionHypothesis]
            simp [same]
          case isFalse different =>
            simp [Ne.symm different]

/-- A text that starts with no other has no rest after it. -/
theorem after?_eq_none_iff
    {start text : List Char} :
    after? start text = none ↔ ¬ start <+: text := by
  rw [Option.eq_none_iff_forall_ne_some]
  constructor
  · rintro isNone ⟨tail, isText⟩
    exact isNone tail (after?_eq_some_iff.mpr isText.symm)
  · intro startsOtherwise tail isSome
    exact startsOtherwise ⟨tail, (after?_eq_some_iff.mp isSome).symm⟩

theorem startsWith_iff
    {start text : List Char} :
    startsWith start text = true ↔ start <+: text := by
  rw [startsWith, ← not_iff_not, ← after?_eq_none_iff, Bool.not_eq_true,
    Option.isSome_eq_false_iff, Option.isNone_iff_eq_none]

/-- A text that is not split has no occurrence. -/
theorem splitFirst?_eq_none_iff
    {wanted text : List Char} :
    splitFirst? wanted text = none ↔ ¬ wanted <:+: text := by
  induction text with
  | nil =>
      simp [splitFirst?]
  | cons c rest inductionHypothesis =>
      rw [splitFirst?, List.infix_cons_iff, not_or, ← inductionHypothesis,
        ← after?_eq_none_iff]
      cases after? wanted (c :: rest) <;> simp

theorem occursIn_iff
    {wanted text : List Char} :
    occursIn wanted text = true ↔ wanted <:+: text := by
  rw [occursIn, ← not_iff_not, ← splitFirst?_eq_none_iff, Bool.not_eq_true,
    Option.isSome_eq_false_iff, Option.isNone_iff_eq_none]

/-- A split text is made of its parts, and no occurrence starts within the first one. -/
theorem splitFirst?_eq_some
    {wanted text before after : List Char}
    (isSplit : splitFirst? wanted text = some (before, after)) :
    text = before ++ wanted ++ after ∧
      ∀ earlier later, text = earlier ++ wanted ++ later →
        before.length ≤ earlier.length := by
  induction text generalizing before after with
  | nil =>
      rw [splitFirst?] at isSplit
      split at isSplit
      case isTrue isEmpty =>
        cases isSplit
        simp [List.isEmpty_iff.mp isEmpty]
      case isFalse =>
        cases isSplit
  | cons c rest inductionHypothesis =>
      rw [splitFirst?] at isSplit
      split at isSplit
      case h_1 tail isTail =>
        cases isSplit
        exact ⟨after?_eq_some_iff.mp isTail, by simp⟩
      case h_2 isNone =>
        obtain ⟨⟨inner, tail⟩, isInner, isParts⟩ := Option.map_eq_some_iff.mp isSplit
        cases isParts
        obtain ⟨isRest, isFirst⟩ := inductionHypothesis isInner
        refine ⟨by simp [isRest], ?_⟩
        intro earlier later isText
        cases earlier with
        | nil =>
            have starts : after? wanted (c :: rest) = some later :=
              after?_eq_some_iff.mpr (by simpa using isText)
            rw [isNone] at starts
            cases starts
        | cons d earlier =>
            have isLater : rest = earlier ++ wanted ++ later := by
              simpa using (List.cons.inj isText).2
            simpa using isFirst earlier later isLater

/-- A text is split at the first mark behind what does not hold its first character. -/
theorem splitFirst?_append_of_notMem
    {first : Char}
    {before : List Char}
    (notBefore : first ∉ before)
    (mark after : List Char) :
    splitFirst? (first :: mark) (before ++ (first :: mark) ++ after) =
      some (before, after) := by
  induction before with
  | nil =>
      have starts : after? (first :: mark) (first :: mark ++ after) = some after :=
        after?_eq_some_iff.mpr rfl
      rw [List.nil_append, List.cons_append, splitFirst?, ← List.cons_append, starts]
  | cons c before inductionHypothesis =>
      obtain ⟨different, notRest⟩ := not_or.mp (List.mem_cons.not.mp notBefore)
      have notHere :
          after? (first :: mark) (c :: (before ++ (first :: mark) ++ after)) = none := by
        rw [after?, if_neg different]
      rw [List.cons_append, List.cons_append, splitFirst?, notHere,
        inductionHypothesis notRest]
      rfl

/-- What holds of the last character of a text holds of that of its end. -/
theorem forall_getLast?_of_append
    {motive : Char → Prop}
    {left right : List Char}
    (holds : ∀ c ∈ (left ++ right).getLast?, motive c) :
    ∀ c ∈ right.getLast?, motive c := by
  intro c isLast
  refine holds c ?_
  rw [List.getLast?_append]
  simp [Option.mem_def.mp isLast]

/-- A mark that holds no last character of a piece does not reach over its end. -/
theorem eq_nil_or_append_of_mark
    {mark piece rest tail : List Char}
    (noReach : ∀ c ∈ piece.getLast?, c ∉ mark)
    (same : mark ++ tail = piece ++ rest) :
    piece = [] ∨ ∃ inner, piece = mark ++ inner ∧ tail = inner ++ rest := by
  rcases List.append_eq_append_iff.mp same with ⟨inner, isPiece, isTail⟩ | ⟨behind, isMark, _⟩
  · exact Or.inr ⟨inner, isPiece, isTail⟩
  · refine Or.inl (List.getLast?_eq_none_iff.mp (Option.eq_none_iff_forall_not_mem.mpr ?_))
    intro c isLast
    refine noReach c isLast ?_
    rw [isMark]
    exact List.mem_append_left behind (List.mem_of_getLast? isLast)

/-- A text without a mark is what stands before the first one put behind it. -/
theorem splitFirst?_append
    {mark text : List Char}
    (noMark : ¬ mark <:+: text)
    (noReach : ∀ c ∈ text.getLast?, c ∉ mark)
    (after : List Char) :
    splitFirst? mark (text ++ mark ++ after) = some (text, after) := by
  cases isSplit : splitFirst? mark (text ++ mark ++ after) with
  | none =>
      exact absurd ⟨text, after, rfl⟩ (splitFirst?_eq_none_iff.mp isSplit)
  | some parts =>
      obtain ⟨first, second⟩ := parts
      obtain ⟨isText, isFirst⟩ := splitFirst?_eq_some isSplit
      have notLater : first.length ≤ text.length := isFirst text after rfl
      rw [List.append_assoc, List.append_assoc] at isText
      rcases List.append_eq_append_iff.mp isText with
        ⟨more, isBefore, isRest⟩ | ⟨piece, isPiece, isRest⟩
      · have isNil : more = [] := by
          rw [isBefore, List.length_append] at notLater
          exact List.length_eq_zero_iff.mp (by omega)
        subst isNil
        have isAfter : after = second := List.append_cancel_left isRest
        rw [isBefore, List.append_nil, isAfter]
      · have pieceEnds : ∀ c ∈ piece.getLast?, c ∉ mark :=
          forall_getLast?_of_append (isPiece ▸ noReach)
        rcases eq_nil_or_append_of_mark pieceEnds isRest with isNil | ⟨inner, isInner, _⟩
        · subst isNil
          have isAfter : second = after := List.append_cancel_left isRest
          rw [isPiece, List.append_nil, isAfter]
        · exact absurd ⟨first, inner, by rw [isPiece, isInner, List.append_assoc]⟩ noMark

/--
An occurrence of a mark around a piece is one in the piece, if the mark's first character is
not found outside of the piece and the mark does not reach over its end.
-/
theorem occurs_within
    {first : Char}
    {mark before piece after earlier later : List Char}
    (notBefore : first ∉ before)
    (notAfter : first ∉ after)
    (noReach : ∀ c ∈ piece.getLast?, c ∉ first :: mark)
    (occurs : before ++ piece ++ after = earlier ++ (first :: mark) ++ later) :
    ∃ left right,
      earlier = before ++ left ∧
        piece = left ++ (first :: mark) ++ right ∧
          later = right ++ after := by
  have startsWithin :
      ∃ left, earlier = before ++ left ∧ piece ++ after = left ++ (first :: mark) ++ later := by
    rw [List.append_assoc, List.append_assoc] at occurs
    rcases List.append_eq_append_iff.mp occurs with
      ⟨left, isEarlier, isRest⟩ | ⟨outside, isBefore, isRest⟩
    · exact ⟨left, isEarlier, by rw [isRest, List.append_assoc]⟩
    · cases outside with
      | nil =>
          exact ⟨[], by simp [isBefore], by simpa using isRest.symm⟩
      | cons c outside =>
          have isFirst : first = c := (List.cons.inj isRest).1
          exact absurd (by simp [isBefore, isFirst]) notBefore
  obtain ⟨left, isEarlier, isRest⟩ := startsWithin
  rw [List.append_assoc] at isRest
  rcases List.append_eq_append_iff.mp isRest with
    ⟨outside, _, isAfter⟩ | ⟨inner, isPiece, isMark⟩
  · exact absurd (by simp [isAfter]) notAfter
  · have innerEnds : ∀ c ∈ inner.getLast?, c ∉ first :: mark :=
      forall_getLast?_of_append (isPiece ▸ noReach)
    rcases eq_nil_or_append_of_mark innerEnds isMark with isNil | ⟨right, isInner, isLater⟩
    · subst isNil
      exact absurd (by simp [show after = first :: mark ++ later from isMark.symm]) notAfter
    · exact ⟨left, right, isEarlier, by rw [isPiece, isInner, List.append_assoc], isLater⟩

/-- So a mark occurs around the piece only if it occurs in it. -/
theorem infix_append_iff
    {first : Char}
    {mark before piece after : List Char}
    (notBefore : first ∉ before)
    (notAfter : first ∉ after)
    (noReach : ∀ c ∈ piece.getLast?, c ∉ first :: mark) :
    first :: mark <:+: before ++ piece ++ after ↔ first :: mark <:+: piece := by
  constructor
  · rintro ⟨earlier, later, occurs⟩
    obtain ⟨left, right, _, isPiece, _⟩ :=
      occurs_within notBefore notAfter noReach occurs.symm
    exact ⟨left, right, isPiece.symm⟩
  · intro occurs
    exact occurs.trans ⟨before, after, rfl⟩

/-- The last of a character, with no other behind it, is where a text is cut. -/
theorem throughLast?_append
    {wanted : Char}
    {after : List Char}
    (notAfter : wanted ∉ after)
    (before : List Char) :
    throughLast? wanted (before ++ [wanted] ++ after) = some (before ++ [wanted]) := by
  have dropped :
      ∀ c ∈ after.reverse, (c != wanted) = true := by
    intro c member
    simp only [bne_iff_ne, ne_eq]
    rintro rfl
    exact notAfter (List.mem_reverse.mp member)
  rw [throughLast?, List.reverse_append, List.reverse_append,
    List.dropWhile_append_of_pos dropped]
  simp

end Split

end Runbook.Text
