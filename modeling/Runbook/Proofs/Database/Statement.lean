import Mathlib.Data.List.Basic
import Runbook.Database.Statement
import Runbook.Proofs.Results
import Runbook.Proofs.Text.Words

namespace Runbook.Database

/-!
# What a statement is written with

A query that is read as a statement consists of words, numbers and a few marks, with gaps
between them.  Its table is a word behind another word, so it is a longest run of the
characters that words are made of.
-/

namespace Lexeme

variable {lexeme : Lexeme} {lexemes : List Lexeme} {text : List Char} {c : Char}

/-- The characters that separate tokens. -/
def gaps : List Char := ['\t', '\n', '\x0c', '\r', ' ']

theorem mem_gaps_of_isGap
    (isGap : isGap c = true) :
    c ∈ gaps := by
  have isPoint : c.toNat ∈ gaps.map Char.toNat := by
    simp [Lexeme.isGap] at isGap
    simp [gaps]
    rcases isGap with rfl | isGap
    · decide
    · omega
  exact (List.mem_map_of_injective fun _ _ => Char.toNat_inj.mp).mp isPoint

/-- Lexemes are those of a text, wherever it stands. -/
inductive Scans : (text : List Char) → (lexemes : List Lexeme) → Prop where
  | nil :
      Scans [] []
  | gap
      {c : Char}
      {rest : List Char}
      {lexemes : List Lexeme}
      (isGap : isGap c = true)
      (scans : Scans rest lexemes) :
      Scans (c :: rest) lexemes
  | token
      {c : Char}
      {rest : List Char}
      {lexemes : List Lexeme}
      (offset : Nat)
      (notGap : isGap c = false)
      (scans : Scans (tokenAt c rest).2.2 lexemes) :
      Scans (c :: rest) (⟨(tokenAt c rest).1, offset⟩ :: lexemes)

theorem inWord_of_startsWord
    (starts : startsWord c = true) :
    inWord c = true := by
  rw [inWord, starts]
  rfl

theorem inWord_of_isDigit
    (isDigit : c.isDigit = true) :
    inWord c = true := by
  rw [inWord, isDigit, Bool.or_true]
  rfl

/-- A token takes characters of words from a text, or is a mark and takes the mark. -/
theorem exists_tokenAt
    (c : Char)
    (rest : List Char) :
    ∃ taken, taken ≠ [] ∧ c :: rest = taken ++ (tokenAt c rest).2.2 ∧
      ((∀ d ∈ taken, inWord d = true) ∨ taken = [c] ∧ (tokenAt c rest).1 = .mark c) := by
  rw [tokenAt]
  split
  case isTrue starts =>
    refine ⟨c :: rest.takeWhile inWord, List.cons_ne_nil _ _,
      by simp [spanOf, List.takeWhile_append_dropWhile], Or.inl ?_⟩
    exact List.forall_mem_cons.mpr
      ⟨inWord_of_startsWord starts, fun d => List.mem_takeWhile_imp⟩
  case isFalse =>
    split
    case isTrue isDigit =>
      refine ⟨c :: rest.takeWhile Char.isDigit, List.cons_ne_nil _ _,
        by simp [spanOf, List.takeWhile_append_dropWhile], Or.inl ?_⟩
      exact List.forall_mem_cons.mpr ⟨inWord_of_isDigit isDigit,
        fun d member => inWord_of_isDigit (List.mem_takeWhile_imp member)⟩
    case isFalse =>
      exact ⟨[c], List.cons_ne_nil _ _, rfl, Or.inr ⟨rfl, rfl⟩⟩

theorem scans_scan
    {fuel : Nat}
    (enough : text.length ≤ fuel)
    (offset : Nat) :
    Scans text (scan offset text fuel) := by
  induction fuel generalizing text offset with
  | zero =>
      rw [List.eq_nil_of_length_eq_zero (Nat.le_zero.mp enough)]
      exact .nil
  | succ fuel inductionHypothesis =>
      cases text with
      | nil =>
          exact .nil
      | cons c rest =>
          rw [scan]
          split
          case isTrue isGap =>
            exact .gap isGap (inductionHypothesis (Nat.le_of_succ_le_succ enough) _)
          case isFalse notGap =>
            obtain ⟨taken, someTaken, isText, -⟩ := exists_tokenAt c rest
            have fewer : (tokenAt c rest).2.2.length ≤ fuel := by
              have longer := List.length_pos_iff.mpr someTaken
              have total := congrArg List.length isText
              rw [List.length_append] at total
              omega
            exact .token offset (Bool.eq_false_iff.mpr notGap) (inductionHypothesis fewer _)

theorem scans_ofQuery (query : String) : Scans query.toList (ofQuery query) :=
  scans_scan (Nat.le_of_eq String.length_toList) 0

/-- What is scanned later stands behind what is scanned before. -/
theorem Scans.split
    {before later : List Lexeme}
    (scans : Scans text (before ++ later)) :
    ∃ ahead behind, text = ahead ++ behind ∧ Scans behind later := by
  generalize isAll : before ++ later = all at scans
  induction scans generalizing before with
  | nil =>
      rw [(List.append_eq_nil_iff.mp isAll).2]
      exact ⟨[], [], rfl, .nil⟩
  | @gap c rest lexemes isGap scans inductionHypothesis =>
      obtain ⟨ahead, behind, rfl, scansLater⟩ := inductionHypothesis isAll
      exact ⟨c :: ahead, behind, rfl, scansLater⟩
  | @token c rest lexemes offset notGap scans inductionHypothesis =>
      cases before with
      | nil =>
          rw [List.nil_append] at isAll
          subst isAll
          exact ⟨[], c :: rest, rfl, .token offset notGap scans⟩
      | cons first before =>
          obtain ⟨ahead, behind, isRest, scansLater⟩ := inductionHypothesis (List.cons.inj isAll).2
          obtain ⟨taken, -, isText, -⟩ := exists_tokenAt c rest
          refine ⟨taken ++ ahead, behind, ?_, scansLater⟩
          rw [isText, isRest, List.append_assoc]

theorem inWord_eq_false_of_isGap
    (isGap : isGap c = true) :
    inWord c = false := by
  have allOther : (gaps.all fun d => !inWord d) = true := by
    decide
  exact (Bool.not_eq_true' _).mp (List.all_eq_true.mp allOther c (mem_gaps_of_isGap isGap))

/-- A word that comes next stands behind gaps, and goes on as far as it can. -/
theorem Scans.word
    {written : String}
    {offset : Nat}
    (scans : Scans text (⟨.word written, offset⟩ :: lexemes)) :
    ∃ gaps behind, text = gaps ++ written.toList ++ behind ∧
      (∀ c ∈ gaps, isGap c = true) ∧ Text.IsRun inWord gaps written.toList behind ∧
        Scans behind lexemes := by
  generalize isAll : (⟨.word written, offset⟩ : Lexeme) :: lexemes = all at scans
  induction scans with
  | nil =>
      cases isAll
  | @gap c rest _ isGap scans inductionHypothesis =>
      obtain ⟨gaps, behind, rfl, allGaps, isRun, scansLater⟩ := inductionHypothesis isAll
      have allGaps : ∀ d ∈ c :: gaps, Lexeme.isGap d = true :=
        List.forall_mem_cons.mpr ⟨isGap, allGaps⟩
      refine ⟨c :: gaps, behind, rfl, allGaps, ⟨isRun.someThere, isRun.within, ?_, isRun.endsAfter⟩,
        scansLater⟩
      exact fun d isLast => inWord_eq_false_of_isGap (allGaps d (List.mem_of_getLast? isLast))
  | @token c rest others start notGap scans _ =>
      obtain ⟨isLexeme, rfl⟩ := List.cons.inj isAll
      have isToken : (tokenAt c rest).1 = .word written := (Lexeme.mk.inj isLexeme).1.symm
      rw [tokenAt] at isToken scans
      split at isToken
      · next starts =>
        rw [if_pos starts] at scans
        have isWritten : written.toList = c :: rest.takeWhile inWord := by
          cases isToken
          exact String.toList_ofList
        have isText : rest.takeWhile inWord ++ rest.dropWhile inWord = rest :=
          List.takeWhile_append_dropWhile
        refine ⟨[], rest.dropWhile inWord, ?_, List.forall_mem_nil _, ?_, scans⟩
        · rw [isWritten, List.nil_append, List.cons_append, isText]
        · rw [isWritten]
          refine ⟨List.cons_ne_nil _ _, ?_, by simp, ?_⟩
          · exact List.forall_mem_cons.mpr
              ⟨inWord_of_startsWord starts, fun d => List.mem_takeWhile_imp⟩
          · exact Text.forall_head?_dropWhile inWord rest
      · split at isToken <;> cases isToken

/-- The marks that a statement may have. -/
def plainMarks : List Char := [',', '*', '-']

/-- A lexeme is a word, a number or one of the marks that a statement may have. -/
def IsPlain (lexeme : Lexeme) : Prop :=
  ∀ c, lexeme.token = .mark c → c ∈ plainMarks

/-- The characters of a text are those of its tokens, and gaps. -/
theorem Scans.characters
    (scans : Scans text lexemes)
    (plain : ∀ lexeme ∈ lexemes, lexeme.IsPlain) :
    ∀ c ∈ text, inWord c = true ∨ c ∈ gaps ++ plainMarks := by
  induction scans with
  | nil =>
      exact List.forall_mem_nil _
  | @gap c rest _ isGap scans inductionHypothesis =>
      refine List.forall_mem_cons.mpr ⟨Or.inr ?_, inductionHypothesis plain⟩
      exact List.mem_append_left _ (mem_gaps_of_isGap isGap)
  | @token c rest lexemes offset notGap scans inductionHypothesis =>
      obtain ⟨tokenPlain, othersPlain⟩ := List.forall_mem_cons.mp plain
      obtain ⟨taken, -, isText, isTaken⟩ := exists_tokenAt c rest
      rw [isText]
      refine List.forall_mem_append.mpr ⟨?_, inductionHypothesis othersPlain⟩
      rcases isTaken with ofWords | ⟨isMark, isToken⟩
      · exact fun d member => Or.inl (ofWords d member)
      · rw [isMark]
        exact List.forall_mem_singleton.mpr
          (Or.inr (List.mem_append_right _ (tokenPlain c isToken)))

/-- Only a word is a keyword. -/
theorem exists_of_isWord
    {keyword : String}
    (isWord : lexeme.isWord keyword = true) :
    ∃ written offset, lexeme = ⟨.word written, offset⟩ := by
  obtain ⟨token, offset⟩ := lexeme
  cases token with
  | word written =>
      exact ⟨written, offset, rfl⟩
  | number | mark =>
      cases isWord

theorem isPlain_of_isWord
    {keyword : String}
    (isWord : lexeme.isWord keyword = true) :
    lexeme.IsPlain := by
  obtain ⟨written, offset, rfl⟩ := exists_of_isWord isWord
  exact fun c isMark => by cases isMark

theorem isPlain_of_isMark
    (isPlain : c ∈ plainMarks)
    (isMark : lexeme.isMark c = true) :
    lexeme.IsPlain := by
  intro d isOther
  rw [Lexeme.isMark, isOther, beq_iff_eq, Token.mark.injEq] at isMark
  rwa [isMark]

end Lexeme

namespace Statement

open Lexeme

variable {α : Type} {lexemes rest : List Lexeme}

/-- Between lexemes and a rest of them, a statement is made of what stands there. -/
def Passes (lexemes rest : List Lexeme) : Prop :=
  ∃ passed, lexemes = passed ++ rest ∧ ∀ lexeme ∈ passed, lexeme.IsPlain

theorem Passes.refl (lexemes : List Lexeme) : Passes lexemes lexemes :=
  ⟨[], rfl, List.forall_mem_nil _⟩

theorem Passes.cons
    {lexeme : Lexeme}
    (isPlain : lexeme.IsPlain)
    (passes : Passes lexemes rest) :
    Passes (lexeme :: lexemes) rest := by
  obtain ⟨passed, rfl, allPlain⟩ := passes
  exact ⟨lexeme :: passed, rfl, List.forall_mem_cons.mpr ⟨isPlain, allPlain⟩⟩

theorem Passes.trans
    {later : List Lexeme}
    (first : Passes lexemes later)
    (second : Passes later rest) :
    Passes lexemes rest := by
  obtain ⟨passed, rfl, firstPlain⟩ := first
  obtain ⟨more, rfl, secondPlain⟩ := second
  exact ⟨passed ++ more, by rw [List.append_assoc],
    List.forall_mem_append.mpr ⟨firstPlain, secondPlain⟩⟩

/-- A keyword is a word. -/
theorem exists_of_keyword
    {word : String}
    (isRead : keyword word lexemes = .ok ((), rest)) :
    ∃ written offset, lexemes = ⟨.word written, offset⟩ :: rest := by
  cases lexemes with
  | nil =>
      cases isRead
  | cons lexeme others =>
      rw [keyword] at isRead
      split at isRead
      · next isWord =>
        cases isRead
        obtain ⟨written, offset, rfl⟩ := exists_of_isWord isWord
        exact ⟨written, offset, rfl⟩
      · cases isRead

/-- A name is a word. -/
theorem eq_of_name
    {read : Name}
    (isRead : name lexemes = .ok (read, rest)) :
    lexemes = ⟨.word read.text, read.offset⟩ :: rest := by
  unfold name at isRead
  split at isRead
  · split at isRead
    · cases isRead
    · cases isRead
      rfl
  · cases lexemes <;> cases isRead

theorem passes_word
    (written : String)
    (offset : Nat)
    (rest : List Lexeme) :
    Passes (⟨.word written, offset⟩ :: rest) rest :=
  .cons (fun c isMark => by cases isMark) (.refl rest)

theorem passes_wantedItem
    {read : Wanted}
    (isRead : wantedItem lexemes = .ok (read, rest)) :
    Passes lexemes rest := by
  cases lexemes with
  | nil =>
      cases isRead
  | cons lexeme others =>
      rw [wantedItem] at isRead
      split at isRead
      · next isMark =>
        cases isRead
        exact .cons (isPlain_of_isMark (by decide) isMark) (.refl _)
      · cases isName : name (lexeme :: others) with
        | error =>
            rw [isName] at isRead
            cases isRead
        | ok named =>
            rw [isName] at isRead
            cases isRead
            rw [eq_of_name isName]
            exact passes_word _ _ _

theorem passes_sortKey
    {read : SortKey}
    (isRead : sortKey lexemes = .ok (read, rest)) :
    Passes lexemes rest := by
  obtain ⟨⟨key, behind⟩, isName, isRead⟩ := exists_of_bind isRead
  rw [eq_of_name isName]
  refine (passes_word _ _ _).trans ?_
  cases behind with
  | nil =>
      cases isRead
      exact .refl _
  | cons next behind =>
      dsimp only at isRead
      split at isRead
      · next isWord =>
        cases isRead
        exact .cons (isPlain_of_isWord isWord) (.refl _)
      · split at isRead
        · next isWord =>
          cases isRead
          exact .cons (isPlain_of_isWord isWord) (.refl _)
        · cases isRead
          exact .refl _

/-- Items are plain if each is. -/
theorem passes_items
    {item : Reading α}
    (passesItem : ∀ lexemes read rest, item lexemes = .ok (read, rest) → Passes lexemes rest)
    {fuel : Nat}
    {read : List α}
    (isRead : items item lexemes fuel = .ok (read, rest)) :
    Passes lexemes rest := by
  induction fuel generalizing lexemes read with
  | zero =>
      cases lexemes <;> cases isRead
  | succ fuel inductionHypothesis =>
      obtain ⟨⟨first, behind⟩, isItem, isRead⟩ := exists_of_bind isRead
      refine (passesItem _ _ _ isItem).trans ?_
      cases behind with
      | nil =>
          cases isRead
          exact .refl _
      | cons next behind =>
          dsimp only at isRead
          split at isRead
          · next isMark =>
            obtain ⟨⟨others, later⟩, isOthers, isRead⟩ := exists_of_bind isRead
            cases isRead
            exact .cons (isPlain_of_isMark (by decide) isMark) (inductionHypothesis isOthers)
          · cases isRead
            exact .refl _

theorem passes_orderPart
    {read : List SortKey}
    (isRead : orderPart lexemes = .ok (read, rest)) :
    Passes lexemes rest := by
  cases lexemes with
  | nil =>
      cases isRead
      exact .refl _
  | cons lexeme others =>
      rw [orderPart] at isRead
      split at isRead
      · next isWord =>
        obtain ⟨⟨_, behind⟩, isKeyword, areKeys⟩ := exists_of_bind isRead
        obtain ⟨written, offset, isBy⟩ := exists_of_keyword isKeyword
        rw [isBy]
        refine .cons (isPlain_of_isWord isWord) ((passes_word _ _ _).trans ?_)
        exact passes_items (fun _ _ _ => passes_sortKey) areKeys
      · cases isRead
        exact .refl _

theorem passes_count
    {read : Option Nat}
    (isRead : count lexemes = .ok (read, rest)) :
    Passes lexemes rest := by
  have numberPlain (text : String) (offset : Nat) :
      (⟨.number text, offset⟩ : Lexeme).IsPlain :=
    fun c isMark => by cases isMark
  unfold count at isRead
  split at isRead
  · cases isRead
    exact .cons (numberPlain _ _) (.refl _)
  · cases isRead
    exact .cons (isPlain_of_isMark (c := '-') (by decide) rfl)
      (.cons (numberPlain _ _) (.refl _))
  · cases lexemes <;> cases isRead

theorem passes_limitPart
    {read : Option Nat}
    (isRead : limitPart lexemes = .ok (read, rest)) :
    Passes lexemes rest := by
  cases lexemes with
  | nil =>
      cases isRead
      exact .refl _
  | cons lexeme others =>
      rw [limitPart] at isRead
      split at isRead
      · next isWord =>
        exact .cons (isPlain_of_isWord isWord) (passes_count isRead)
      · cases isRead
        exact .refl _

variable {query : String} {statement : Statement}

/-- A statement is made of plain lexemes, and its table stands behind a word. -/
theorem exists_of_ofQuery
    (isStatement : ofQuery query = .ok statement) :
    ∃ before written offset after,
      Lexeme.ofQuery query =
        before ++ ⟨.word written, offset⟩ ::
          ⟨.word statement.table.text, statement.table.offset⟩ :: after ∧
        ∀ lexeme ∈ Lexeme.ofQuery query, lexeme.IsPlain := by
  obtain ⟨⟨_, behindSelect⟩, isSelect, readsWanted⟩ := exists_of_bind isStatement
  obtain ⟨⟨wanted, behindWanted⟩, isWanted, readsFrom⟩ := exists_of_bind readsWanted
  obtain ⟨⟨_, behindFrom⟩, isFrom, readsTable⟩ := exists_of_bind readsFrom
  obtain ⟨⟨table, behindTable⟩, isTable, readsOrder⟩ := exists_of_bind readsTable
  obtain ⟨⟨order, behindOrder⟩, isOrder, readsLimit⟩ := exists_of_bind readsOrder
  obtain ⟨⟨limit, behindLimit⟩, isLimit, readsEnd⟩ := exists_of_bind readsLimit
  obtain ⟨select, atSelect, isAll⟩ := exists_of_keyword isSelect
  obtain ⟨written, offset, isBehindWanted⟩ := exists_of_keyword isFrom
  have isBehindFrom := eq_of_name isTable
  obtain ⟨before, isBefore, beforePlain⟩ : Passes (Lexeme.ofQuery query) behindWanted := by
    rw [isAll]
    exact (passes_word _ _ _).trans (passes_items (fun _ _ _ => passes_wantedItem) isWanted)
  have afterPlain : Passes behindWanted behindLimit := by
    rw [isBehindWanted, isBehindFrom]
    exact (passes_word _ _ _).trans ((passes_word _ _ _).trans
      ((passes_orderPart isOrder).trans (passes_limitPart isLimit)))
  cases behindLimit with
  | cons lexeme others =>
      cases readsEnd
  | nil =>
      cases readsEnd
      refine ⟨before, written, offset, behindTable, ?_, ?_⟩
      · rw [isBefore, isBehindWanted, isBehindFrom]
      · obtain ⟨after, isAfter, afterPlain⟩ := afterPlain
        rw [isBefore, isAfter, List.append_nil]
        exact List.forall_mem_append.mpr ⟨beforePlain, afterPlain⟩

/-- The characters that a statement is written with. -/
theorem characters_of_ofQuery
    (isStatement : ofQuery query = .ok statement) :
    ∀ c ∈ query.toList, inWord c = true ∨ c ∈ gaps ++ plainMarks := by
  obtain ⟨_, _, _, _, _, plain⟩ := exists_of_ofQuery isStatement
  exact (scans_ofQuery query).characters plain

/-- The table of a statement is a word of the query. -/
theorem hasRun_table
    (isStatement : ofQuery query = .ok statement) :
    Text.HasRun inWord query.toList statement.table.text.toList := by
  obtain ⟨before, written, offset, after, isAll, -⟩ := exists_of_ofQuery isStatement
  have scans := scans_ofQuery query
  rw [isAll] at scans
  obtain ⟨ahead, text, isText, scansKeyword⟩ := scans.split
  obtain ⟨gapsBefore, rest, isRest, -, keywordRun, scansTable⟩ := scansKeyword.word
  obtain ⟨gapsBetween, behind, isBehind, allGaps, tableRun, -⟩ := scansTable.word
  refine ⟨ahead ++ gapsBefore ++ written.toList ++ gapsBetween, behind, ?_,
    tableRun.someThere, tableRun.within, ?_, tableRun.endsAfter⟩
  · rw [isText, isRest, isBehind]
    simp only [List.append_assoc]
  · -- Without a gap the keyword would go on into the name.
    have someGap : gapsBetween ≠ [] := by
      rintro rfl
      obtain ⟨c, name, isName⟩ := List.exists_cons_of_ne_nil tableRun.someThere
      have isOther := keywordRun.endsAfter c (by rw [isBehind, isName]; rfl)
      rw [tableRun.within c (by rw [isName]; exact List.mem_cons_self)] at isOther
      cases isOther
    obtain ⟨earlier, c, isGaps⟩ := (List.eq_nil_or_concat gapsBetween).resolve_left someGap
    rw [List.concat_eq_append] at isGaps
    rw [isGaps, ← List.append_assoc, List.getLast?_concat]
    rintro d ⟨⟩
    exact inWord_eq_false_of_isGap (allGaps c (by simp [isGaps]))

end Statement

end Runbook.Database
