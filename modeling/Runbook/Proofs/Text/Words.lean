import Mathlib.Data.List.TakeWhile
import Runbook.Text.Words

namespace Runbook.Text

/-!
# Runs and words

A run of characters of a kind is a stretch of a text that cannot be made longer: all its
characters are of the kind, and none is right before or behind it.  The runs that are listed
are these.  A character of another kind cuts a text in two whose runs have nothing to do with
one another, so what is put behind such a character adds runs and changes none.
-/

/-- A stretch of a text is a longest one of characters of a kind. -/
structure IsRun (kind : Char → Bool) (before run after : List Char) : Prop where
  someThere :
    run ≠ []
  within :
    ∀ c ∈ run, kind c = true
  endsBefore :
    ∀ c ∈ before.getLast?, kind c = false
  endsAfter :
    ∀ c ∈ after.head?, kind c = false

/-- A text has a run of characters of a kind. -/
def HasRun (kind : Char → Bool) (text run : List Char) : Prop :=
  ∃ before after, text = before ++ run ++ after ∧ IsRun kind before run after

variable {kind : Char → Bool} {text run before after : List Char} {c : Char}

/-- What is left behind characters of a kind begins with one of another. -/
theorem forall_head?_dropWhile
    (kind : Char → Bool)
    (text : List Char) :
    ∀ c ∈ (text.dropWhile kind).head?, kind c = false := by
  intro c isHead
  have notKind := List.head?_dropWhile_not kind text
  rwa [Option.mem_def.mp isHead] at notKind

theorem runs_cons_of_not
    (notKind : kind c = false)
    (rest : List Char) :
    runs kind (c :: rest) = runs kind rest := by
  rw [runs, notKind, if_neg Bool.false_ne_true]

/-- A run that begins a text is as long as its characters are of the kind. -/
theorem runs_cons_of_kind
    (isKind : kind c = true)
    (rest : List Char) :
    runs kind (c :: rest) =
      (c :: rest.takeWhile kind) :: runs kind (rest.dropWhile kind) := by
  induction rest generalizing c with
  | nil =>
      simp [runs, isKind]
  | cons next rest inductionHypothesis =>
      rw [runs, if_pos isKind]
      by_cases nextKind : kind next = true
      · rw [inductionHypothesis nextKind, List.head?_cons, Option.any_some, if_pos nextKind,
          extendFirst, List.takeWhile_cons_of_pos nextKind, List.dropWhile_cons_of_pos nextKind]
      · rw [List.head?_cons, Option.any_some, if_neg nextKind,
          List.takeWhile_cons_of_neg nextKind, List.dropWhile_cons_of_neg nextKind]

/-- A character of another kind separates the runs before it from those behind it. -/
theorem runs_append_cons
    (notKind : kind c = false)
    (text rest : List Char) :
    runs kind (text ++ c :: rest) = runs kind text ++ runs kind rest := by
  induction text with
  | nil =>
      exact runs_cons_of_not notKind rest
  | cons first text inductionHypothesis =>
      rw [List.cons_append, runs, runs, inductionHypothesis]
      have sameHead :
          (text ++ c :: rest).head?.any kind = text.head?.any kind := by
        cases text with
        | nil =>
            exact notKind
        | cons next text =>
            rfl
      rw [sameHead]
      split
      · split
        case isTrue nextKind =>
          cases text with
          | nil =>
              cases nextKind
          | cons next text =>
              rw [runs_cons_of_kind nextKind]
              rfl
        case isFalse =>
          rfl
      · rfl

/-- Characters of a kind are one run. -/
theorem runs_eq_singleton
    (someThere : run ≠ [])
    (within : ∀ c ∈ run, kind c = true) :
    runs kind run = [run] := by
  obtain ⟨first, rest, rfl⟩ := List.exists_cons_of_ne_nil someThere
  obtain ⟨firstKind, restKind⟩ := List.forall_mem_cons.mp within
  rw [runs_cons_of_kind firstKind, List.takeWhile_eq_self_iff.mpr restKind,
    List.dropWhile_eq_nil_iff.mpr restKind]
  rfl

/-- A run of a text is listed. -/
theorem mem_runs_of_hasRun
    (hasRun : HasRun kind text run) :
    run ∈ runs kind text := by
  obtain ⟨before, after, rfl, isRun⟩ := hasRun
  have fromStart : run ∈ runs kind (run ++ after) := by
    have isOne := runs_eq_singleton isRun.someThere isRun.within
    cases after with
    | nil =>
        rw [List.append_nil, isOne]
        exact List.mem_singleton_self run
    | cons c after =>
        rw [runs_append_cons (isRun.endsAfter c rfl), isOne]
        exact List.mem_cons_self
  rcases List.eq_nil_or_concat before with rfl | ⟨earlier, c, rfl⟩
  · exact fromStart
  · have isEnd : kind c = false := isRun.endsBefore c (by simp)
    rw [List.concat_eq_append, List.append_assoc, List.append_assoc, List.singleton_append,
      runs_append_cons isEnd]
    exact List.mem_append_right _ fromStart

/-- What is listed is a run of the text. -/
theorem hasRun_of_mem_runs
    (isListed : run ∈ runs kind text) :
    HasRun kind text run := by
  induction isLength : text.length using Nat.strongRecOn generalizing text with
  | ind length inductionHypothesis =>
      subst isLength
      cases text with
      | nil =>
          cases isListed
      | cons c rest =>
          by_cases isKind : kind c = true
          · rw [runs_cons_of_kind isKind] at isListed
            have isSplit : rest = rest.takeWhile kind ++ rest.dropWhile kind :=
              List.takeWhile_append_dropWhile.symm
            have headOther := forall_head?_dropWhile kind rest
            rcases List.mem_cons.mp isListed with rfl | isLater
            · refine ⟨[], rest.dropWhile kind, by simp, List.cons_ne_nil _ _, ?_,
                by simp, headOther⟩
              exact List.forall_mem_cons.mpr ⟨isKind, fun d => List.mem_takeWhile_imp⟩
            · have isShorter : (rest.dropWhile kind).length < (c :: rest).length :=
                Nat.lt_succ_of_le (List.length_dropWhile_le kind rest)
              obtain ⟨before, after, isRest, isRun⟩ := inductionHypothesis _ isShorter isLater rfl
              refine ⟨c :: rest.takeWhile kind ++ before, after, ?_, isRun.someThere,
                isRun.within, ?_, isRun.endsAfter⟩
              · rw [List.append_assoc, List.append_assoc, ← List.append_assoc before, ← isRest,
                  List.cons_append, ← isSplit]
              · -- The run cannot begin where the first one ends.
                have notNil : before ≠ [] := by
                  rintro rfl
                  obtain ⟨d, run, rfl⟩ := List.exists_cons_of_ne_nil isRun.someThere
                  have isOther := headOther d (by rw [isRest]; rfl)
                  rw [isRun.within d List.mem_cons_self] at isOther
                  cases isOther
                obtain ⟨earlier, d, rfl⟩ := (List.eq_nil_or_concat before).resolve_left notNil
                have isEnd := isRun.endsBefore
                rw [List.concat_eq_append, List.getLast?_concat] at isEnd
                rwa [List.concat_eq_append, ← List.append_assoc, List.getLast?_concat]
          · have notKind : kind c = false := Bool.eq_false_iff.mpr isKind
            rw [runs_cons_of_not notKind] at isListed
            obtain ⟨before, after, rfl, isRun⟩ :=
              inductionHypothesis _ (Nat.lt_succ_self _) isListed rfl
            refine ⟨c :: before, after, rfl, isRun.someThere, isRun.within, ?_, isRun.endsAfter⟩
            cases before with
            | nil =>
                simpa using notKind
            | cons d before =>
                rw [List.getLast?_cons_cons]
                exact isRun.endsBefore

/-- The runs that are listed are those of the text. -/
theorem mem_runs_iff : run ∈ runs kind text ↔ HasRun kind text run :=
  ⟨hasRun_of_mem_runs, mem_runs_of_hasRun⟩

/-- The characters of a kind that a text begins with are a run. -/
theorem hasRun_takeWhile
    (someThere : text.takeWhile kind ≠ []) :
    HasRun kind text (text.takeWhile kind) :=
  ⟨[], text.dropWhile kind, List.takeWhile_append_dropWhile.symm, someThere,
    fun c => List.mem_takeWhile_imp, by simp, forall_head?_dropWhile kind text⟩

/-- A run stays one behind a character of another kind. -/
theorem HasRun.behind
    (hasRun : HasRun kind text run)
    (notKind : kind c = false)
    (first : List Char) :
    HasRun kind (first ++ c :: text) run := by
  rw [← mem_runs_iff, runs_append_cons notKind]
  exact List.mem_append_right _ (mem_runs_iff.mpr hasRun)

/-- A text has a word if one of its words folds to it. -/
theorem hasWord_iff
    {wanted : List String} :
    hasWord wanted text = true ↔
      ∃ word, HasRun isWordChar text word ∧ String.ofList (word.map foldLetter) ∈ wanted := by
  simp [hasWord, words, mem_runs_iff]

/-- The words of a text with more behind a character between words. -/
theorem hasWord_append_cons
    (wanted : List String)
    (notWordChar : isWordChar c = false)
    (text rest : List Char) :
    hasWord wanted (text ++ c :: rest) = (hasWord wanted text || hasWord wanted rest) := by
  rw [hasWord, words, runs_append_cons notWordChar, List.any_append]
  rfl

end Runbook.Text
