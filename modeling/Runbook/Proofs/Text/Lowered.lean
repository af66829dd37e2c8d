import Mathlib.Data.List.Forall2
import Runbook.Proofs.Text.Cuts
import Runbook.Proofs.Text.LowerChar
import Runbook.Proofs.Text.Parts

namespace Runbook.Text

/-!
# Texts in lower case

What is in lower case stays as it is: no character that a text in lower case has is changed by
lower case again, and none is a capital sigma.  Lower case makes blanks from blanks only.  So a
piece of a text without a capital sigma is the same in lower case wherever it stands.  Where
each character keeps its bytes in lower case, a text becomes one with as many characters.
-/

variable {c d : Char} {text piece before after : List Char}

/-- The small letters that a capital sigma becomes. -/
def smallSigmas : List Char := [Char.ofNat 0x3C2, Char.ofNat 0x3C3]

/-- What becomes of a character in a text. -/
structure LowersTo (c : Char) (part : List Char) : Prop where
  someThere :
    part ≠ []
  steady :
    ∀ d ∈ part, isSteady d = true
  notBlank :
    isBlank c = false → ∀ d ∈ part, isBlank d = false
  ordinary :
    c.toNat ≠ 0x3A3 → part = lowerChar c
  sigma :
    c.toNat = 0x3A3 → ∃ d ∈ smallSigmas, part = [d]

/-- A text is put in lower case character by character. -/
theorem exists_lowerFrom_cons
    (before : List Char)
    (c : Char)
    (rest : List Char) :
    ∃ part, LowersTo c part ∧
      lowerFrom before (c :: rest) = part ++ lowerFrom (c :: before) rest := by
  rw [lowerFrom]
  split
  case isTrue isSigma =>
    have allSmall : smallSigmas.all isSmall = true := by
      decide +kernel
    generalize isForm :
      Char.ofNat (if meetsCased before && !meetsCased rest then 0x3C2 else 0x3C3) = form
    have isSigmaForm : form ∈ smallSigmas := by
      rw [← isForm]
      split <;> simp [smallSigmas]
    obtain ⟨steady, notBlank⟩ := isSmall_iff.mp (List.all_eq_true.mp allSmall form isSigmaForm)
    refine ⟨[form], ?_, rfl⟩
    exact {
      someThere := List.cons_ne_nil _ _
      steady := by simpa using steady
      notBlank := fun _ => by simpa using notBlank
      ordinary := fun notSigma => absurd isSigma notSigma
      sigma := fun _ => ⟨form, isSigmaForm, rfl⟩
    }
  case isFalse notSigma =>
    refine ⟨lowerChar c, ?_, rfl⟩
    exact {
      someThere := lowerChar_ne_nil c
      steady := fun d => isSteady_of_mem_lowerChar notSigma
      notBlank := fun notBlank d => not_isBlank_of_mem_lowerChar notBlank
      ordinary := fun _ => rfl
      sigma := fun isSigma => absurd isSigma notSigma
    }

/-- What is in lower case stays so. -/
theorem isSteady_of_mem_lowerFrom
    (isPart : d ∈ lowerFrom before text) :
    isSteady d = true := by
  induction text generalizing before with
  | nil =>
      cases isPart
  | cons c text inductionHypothesis =>
      obtain ⟨part, lowers, isLower⟩ := exists_lowerFrom_cons before c text
      rw [isLower, List.mem_append] at isPart
      rcases isPart with isFirst | isLater
      · exact lowers.steady d isFirst
      · exact inductionHypothesis isLater

/-- A piece of a text without a capital sigma is the same in lower case wherever it stands. -/
theorem lowerFrom_ordinary
    (noSigma : ∀ c ∈ piece, c.toNat ≠ 0x3A3)
    (before after : List Char) :
    lowerFrom before (piece ++ after) =
      piece.flatMap lowerChar ++ lowerFrom (piece.reverse ++ before) after := by
  induction piece generalizing before with
  | nil =>
      rfl
  | cons c piece inductionHypothesis =>
      obtain ⟨notSigma, noneBehind⟩ := List.forall_mem_cons.mp noSigma
      obtain ⟨part, lowers, isLower⟩ := exists_lowerFrom_cons before c (piece ++ after)
      rw [List.cons_append, isLower, lowers.ordinary notSigma, inductionHypothesis noneBehind,
        List.flatMap_cons, List.append_assoc, List.reverse_cons, List.append_assoc,
        List.singleton_append]

/-- What stands before a text in lower case is the lower case of what stands before it. -/
theorem exists_lowerFrom_append (before first second : List Char) :
    ∃ part,
      lowerFrom before (first ++ second) = part ++ lowerFrom (first.reverse ++ before) second := by
  induction first generalizing before with
  | nil =>
      exact ⟨[], rfl⟩
  | cons c first inductionHypothesis =>
      obtain ⟨part, -, isLower⟩ := exists_lowerFrom_cons before c (first ++ second)
      obtain ⟨more, isMore⟩ := inductionHypothesis (c :: before)
      refine ⟨part ++ more, ?_⟩
      rw [List.cons_append, isLower, isMore, List.append_assoc, List.reverse_cons,
        List.append_assoc, List.singleton_append]

/-- A text without capital sigmas is put in lower case by its characters. -/
theorem lower_eq_flatMap
    (noSigma : ∀ c ∈ text, c.toNat ≠ 0x3A3) :
    lower text = text.flatMap lowerChar := by
  have isLower := lowerFrom_ordinary noSigma [] []
  rwa [List.append_nil, lowerFrom, List.append_nil] at isLower

/-- A text in lower case stays as it is. -/
theorem lower_eq_self
    (steady : ∀ c ∈ text, isSteady c = true) :
    lower text = text := by
  have noSigma : ∀ c ∈ text, c.toNat ≠ 0x3A3 :=
    fun c isPart => (isSteady_iff.mp (steady c isPart)).2
  have allSame : text.flatMap lowerChar = text.flatMap fun c => [c] :=
    List.flatMap_congr fun c isPart => (isSteady_iff.mp (steady c isPart)).1
  rw [lower_eq_flatMap noSigma, allSame, List.flatMap_singleton']

/-- Where a text begins and ends without a blank, so does its lower case. -/
theorem hasEnds_lower
    (ends : HasEnds text) :
    HasEnds (lower text) := by
  obtain ⟨first, isFirst, firstNotBlank⟩ := ends.first
  obtain ⟨last, isLast, lastNotBlank⟩ := ends.last
  constructor
  · obtain ⟨rest, rfl⟩ := List.head?_eq_some_iff.mp isFirst
    obtain ⟨part, lowers, isLower⟩ := exists_lowerFrom_cons [] first rest
    obtain ⟨d, more, rfl⟩ := List.exists_cons_of_ne_nil lowers.someThere
    exact ⟨d, by rw [lower, isLower]; rfl, lowers.notBlank firstNotBlank d List.mem_cons_self⟩
  · obtain ⟨start, rfl⟩ := List.getLast?_eq_some_iff.mp isLast
    obtain ⟨lead, isLead⟩ := exists_lowerFrom_append [] start [last]
    obtain ⟨part, lowers, isLower⟩ := exists_lowerFrom_cons (start.reverse ++ []) last []
    obtain ⟨more, d, rfl⟩ := List.eq_nil_or_concat part |>.resolve_left lowers.someThere
    rw [isLower, lowerFrom, List.append_nil] at isLead
    refine ⟨d, ?_, lowers.notBlank lastNotBlank d (by simp)⟩
    rw [lower, isLead]
    simp

/-- Blanks stay as they are. -/
theorem lower_of_blanks
    {gap : List Char}
    (allBlank : ∀ c ∈ gap, isBlank c = true) :
    lower gap = gap :=
  lower_eq_self fun c isPart => isSteady_of_isBlank (allBlank c isPart)

/-- Between blanks a text is put in lower case for itself. -/
theorem lower_between_blanks
    {lead trail : List Char}
    (leadBlank : ∀ c ∈ lead, isBlank c = true)
    (trailBlank : ∀ c ∈ trail, isBlank c = true)
    (text : List Char) :
    lower (lead ++ text ++ trail) = lead ++ lower text ++ trail := by
  have leadEnds : ∀ c ∈ lead.getLast?, endsCase c = true :=
    fun c isLast => endsCase_of_isBlank (leadBlank c (List.mem_of_getLast? isLast))
  have trailEnds : ∀ c ∈ trail.head?, endsCase c = true :=
    fun c isFirst => endsCase_of_isBlank (trailBlank c (List.mem_of_mem_head? isFirst))
  rw [lower_append_of_head trailEnds, lower_append_of_last leadEnds, lower_of_blanks leadBlank,
    lower_of_blanks trailBlank]

/-- A text is put in lower case before and behind blanks. -/
theorem lower_around_blanks
    {gap : List Char}
    (someBlank : gap ≠ [])
    (allBlank : ∀ c ∈ gap, isBlank c = true)
    (first second : List Char) :
    lower (first ++ gap ++ second) = lower first ++ gap ++ lower second := by
  have gapEnds : ∀ c ∈ (first ++ gap).getLast?, endsCase c = true := by
    intro c isLast
    rw [List.getLast?_append_of_ne_nil first someBlank] at isLast
    exact endsCase_of_isBlank (allBlank c (List.mem_of_getLast? isLast))
  have gapStarts : ∀ c ∈ gap.head?, endsCase c = true :=
    fun c isFirst => endsCase_of_isBlank (allBlank c (List.mem_of_mem_head? isFirst))
  rw [lower_append_of_last gapEnds, lower_append_of_head gapStarts, lower_of_blanks allBlank]

/-- Without blanks around a text its lower case has none. -/
theorem lower_trim (text : List Char) : lower (trim text) = trim (lower text) := by
  obtain ⟨lead, trail, isText, leadBlank, trailBlank⟩ := exists_around_trim text
  have isLower : lower text = lead ++ lower (trim text) ++ trail := by
    have between := lower_between_blanks leadBlank trailBlank (trim text)
    rwa [← isText] at between
  by_cases someLeft : trim text = []
  · have allBlank : ∀ c ∈ text, isBlank c = true :=
      List.all_eq_true.mp (trim_eq_nil_iff.mp someLeft)
    rw [lower_of_blanks allBlank, someLeft]
    rfl
  · have noLead : trimStart lead = [] := List.dropWhile_eq_nil_iff.mpr leadBlank
    have noTrail : trimEnd trail = [] := by
      rw [trimEnd, List.reverse_eq_nil_iff, List.dropWhile_eq_nil_iff]
      exact fun c isPart => trailBlank c (List.mem_reverse.mp isPart)
    rw [isLower, trim_append (hasEnds_lower (hasEnds_trim someLeft)), noLead, noTrail,
      List.nil_append, List.append_nil]

/-- A piece shows a text: whatever stands around it, the text is there in lower case. -/
def Shows (piece wanted : List Char) : Prop :=
  ∀ before after, wanted <:+: lower (before ++ piece ++ after)

theorem shows_of_ordinary
    {wanted : List Char}
    (noSigma : ∀ c ∈ piece, c.toNat ≠ 0x3A3)
    (occurs : wanted <:+: piece.flatMap lowerChar) :
    Shows piece wanted := by
  intro before after
  obtain ⟨lead, isLead⟩ := exists_lowerFrom_append [] before (piece ++ after)
  rw [lower, List.append_assoc, isLead, lowerFrom_ordinary noSigma, ← List.append_assoc]
  exact occurs.trans ⟨lead, _, rfl⟩

section Kept

/-- Each character of a text has as many bytes in lower case. -/
def KeepsBytes (text : List Char) : Prop :=
  ∀ c ∈ text, byteLength (lowerChar c) = c.utf8Size

/-- A character becomes a single one with as many bytes. -/
structure KeptAs (c d : Char) : Prop where
  lowers :
    LowersTo c [d]
  sameSize :
    d.utf8Size = c.utf8Size

variable {lowered : List Char}

/-- What a character becomes that keeps its bytes is a single character. -/
theorem LowersTo.exists_keptAs
    {part : List Char}
    (lowers : LowersTo c part)
    (sameLength : byteLength (lowerChar c) = c.utf8Size) :
    ∃ d, part = [d] ∧ KeptAs c d := by
  by_cases isSigma : c.toNat = 0x3A3
  · obtain ⟨d, isForm, rfl⟩ := lowers.sigma isSigma
    have isChar : c = Char.ofNat 0x3A3 := by
      rw [← isSigma, Char.ofNat_toNat]
    have sameSizes :
        (smallSigmas.all fun d => d.utf8Size == (Char.ofNat 0x3A3).utf8Size) = true := by
      decide +kernel
    have sameSize := eq_of_beq (List.all_eq_true.mp sameSizes d isForm)
    exact ⟨d, rfl, lowers, by rw [sameSize, isChar]⟩
  · obtain ⟨d, isLower⟩ := exists_lowerChar_eq sameLength
    obtain rfl := (lowers.ordinary isSigma).trans isLower
    rw [isLower, byteLength, byteLength] at sameLength
    exact ⟨d, rfl, lowers, sameLength⟩

/-- A text whose characters keep their bytes is put in lower case one by one. -/
theorem forall₂_keptAs
    (keeps : KeepsBytes text)
    (before : List Char) :
    List.Forall₂ KeptAs text (lowerFrom before text) := by
  induction text generalizing before with
  | nil =>
      exact .nil
  | cons c text inductionHypothesis =>
      obtain ⟨firstKeeps, restKeeps⟩ := List.forall_mem_cons.mp keeps
      obtain ⟨part, lowers, isLower⟩ := exists_lowerFrom_cons before c text
      obtain ⟨d, rfl, kept⟩ := lowers.exists_keptAs firstKeeps
      rw [isLower]
      exact .cons kept (inductionHypothesis restKeeps (c :: before))

/-- Where the lower case of such a text is cut, the text is. -/
theorem exists_parts_of_keptAs
    {first second : List Char}
    (kept : List.Forall₂ KeptAs text (first ++ second)) :
    ∃ before after, text = before ++ after ∧
      List.Forall₂ KeptAs before first ∧ List.Forall₂ KeptAs after second :=
  ⟨text.take first.length, text.drop first.length, (List.take_append_drop _ _).symm,
    List.forall₂_take_append _ _ _ kept, List.forall₂_drop_append _ _ _ kept⟩

theorem byteLength_of_keptAs
    (kept : List.Forall₂ KeptAs text lowered) :
    byteLength lowered = byteLength text := by
  induction kept with
  | nil =>
      rfl
  | cons first _ inductionHypothesis =>
      rw [byteLength, byteLength, first.sameSize, inductionHypothesis]

/-- Without a capital sigma the characters are those that each becomes by itself. -/
theorem flatMap_of_keptAs
    (kept : List.Forall₂ KeptAs text lowered)
    (noSigma : ∀ c ∈ text, c.toNat ≠ 0x3A3) :
    text.flatMap lowerChar = lowered := by
  induction kept with
  | nil =>
      rfl
  | cons first _ inductionHypothesis =>
      obtain ⟨notSigma, noneBehind⟩ := List.forall_mem_cons.mp noSigma
      rw [List.flatMap_cons, inductionHypothesis noneBehind, ← first.lowers.ordinary notSigma,
        List.singleton_append]

/-- No small sigma comes of a text without a capital one. -/
theorem not_sigma_of_keptAs
    (kept : List.Forall₂ KeptAs text lowered)
    (noSmallSigma : ∀ d ∈ smallSigmas, d ∉ lowered) :
    ∀ c ∈ text, c.toNat ≠ 0x3A3 := by
  induction kept with
  | nil =>
      intro c isThere
      cases isThere
  | cons first _ inductionHypothesis =>
      refine List.forall_mem_cons.mpr ⟨?_, inductionHypothesis ?_⟩
      · intro isSigma
        obtain ⟨d, isForm, same⟩ := first.lowers.sigma isSigma
        refine noSmallSigma d isForm ?_
        rw [(List.cons.inj same).1]
        exact List.mem_cons_self
      · exact fun d isForm isThere => noSmallSigma d isForm (List.mem_cons_of_mem _ isThere)

end Kept

end Runbook.Text
