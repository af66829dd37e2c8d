import Runbook.Database.Guard
import Runbook.Database.Statement
import Runbook.Proofs.Text.Lowercase
import Runbook.Proofs.Text.Parts
import Runbook.Proofs.Text.Words

namespace Runbook.Database

/-!
# What the guard lets through

The guard reads a query as a text: where it begins, which words it has and which names occur
in it.  The database reads the query that was given a limit, and ends words elsewhere.  This
module shows that the limit changes nothing of what the guard asked for, and that no word of
the database's own is one that writes.
-/

namespace Guard

/-- The text in which the guard looks for names. -/
def readText (query : String) : List Char := Text.lower (Text.trim query.toList)

/-- What the guard asks of a query. -/
structure Admits (guard : Guard) (query : String) : Prop where
  noSemicolon :
    ';' ∉ query.toList
  reads :
    ∃ start ∈ readingStarts, start.toList <+: readText query
  writesNot :
    Text.hasWord writingWords query.toList = false
  named :
    ∃ table ∈ guard.tables, table.toList <:+: readText query

variable {guard : Guard} {query : String}

/-- A query is let through if it is all that the guard asks for. -/
theorem refusal?_eq_none_iff : guard.refusal? query = none ↔ guard.Admits query := by
  have passes
      {condition : Prop}
      [Decidable condition]
      {refusal : Refusal}
      {rest : Option Refusal} :
      (if condition then some refusal else rest) = none ↔ ¬ condition ∧ rest = none := by
    split <;> simp [*]
  rw [refusal?, ← readText, passes, passes, passes, passes]
  constructor
  · rintro ⟨noSemicolon, reads, writesNot, named, -⟩
    refine ⟨noSemicolon, ?_, Bool.eq_false_iff.mpr writesNot, ?_⟩
    · simpa [Text.startsWith_iff] using reads
    · simpa [Text.occursIn_iff] using named
  · rintro ⟨noSemicolon, reads, writesNot, named⟩
    refine ⟨noSemicolon, ?_, Bool.eq_false_iff.mp writesNot, ?_, rfl⟩
    · simpa [Text.startsWith_iff] using reads
    · simpa [Text.occursIn_iff] using named

/-- Text behind a query, if it begins with a blank and does not end with one, is read as it
stands. -/
theorem readText_append
    (someThere : Text.trim query.toList ≠ [])
    (more : String)
    (startsBlank : ∀ c ∈ more.toList.head?, Text.isBlank c = true)
    (endsOtherwise : ∃ c ∈ more.toList.getLast?, Text.isBlank c = false) :
    ∃ behind, readText (query ++ more) = readText query ++ behind := by
  obtain ⟨lead, trail, isQuery, leadBlank, trailBlank⟩ := Text.exists_around_trim query.toList
  obtain ⟨first, isFirst, firstNotBlank⟩ := (Text.hasEnds_trim someThere).first
  obtain ⟨last, isLast, lastNotBlank⟩ := endsOtherwise
  -- The blanks that were trimmed behind the query now stand within the text.
  have ends : Text.HasEnds (Text.trim query.toList ++ (trail ++ more.toList)) := by
    refine ⟨⟨first, ?_, firstNotBlank⟩, ⟨last, ?_, lastNotBlank⟩⟩
    · simp [Option.mem_def.mp isFirst]
    · simp [Option.mem_def.mp isLast]
  have noLead : Text.trimStart lead = [] := List.dropWhile_eq_nil_iff.mpr leadBlank
  have noTrail : Text.trimEnd [] = [] := rfl
  have around :
      (query ++ more).toList =
        lead ++ (Text.trim query.toList ++ (trail ++ more.toList)) ++ [] := by
    rw [String.toList_append]
    conv_lhs => rw [isQuery]
    simp
  refine ⟨Text.lower (trail ++ more.toList), ?_⟩
  rw [readText, around, Text.trim_append ends, noLead, noTrail, List.nil_append,
    List.append_nil, Text.lower_append_of_head, ← readText]
  intro c isHead
  refine Text.endsCase_of_isBlank ?_
  cases trail with
  | nil =>
      exact startsBlank c isHead
  | cons d trail =>
      cases isHead
      exact trailBlank c List.mem_cons_self

end Guard

section Words

variable {query : String} {c : Char}

/-- A character of the guard's words is one of the database's words. -/
theorem Lexeme.inWord_of_isWordChar
    (isWordChar : Text.isWordChar c = true) :
    Lexeme.inWord c = true := by
  rw [Text.isWordChar] at isWordChar
  split at isWordChar
  · rcases Bool.or_eq_true_iff.mp isWordChar with isAlphanum | isLine
    · rcases Bool.or_eq_true_iff.mp isAlphanum with isAlpha | isDigit
      · simp [inWord, startsWord, isAlpha]
      · simp [inWord, isDigit]
    · simp [inWord, startsWord, isLine]
  · simp [inWord, startsWord]
    omega

/-- A letter whose small one is a small ASCII letter is an ASCII letter. -/
theorem isAlpha_of_isLower_toLower
    (isLower : c.toLower.isLower = true) :
    c.isAlpha = true := by
  refine Bool.or_eq_true_iff.mpr ?_
  cases isUpper : c.isUpper with
  | true =>
      exact Or.inl rfl
  | false =>
      have same : c.toLower = c := dif_neg (of_decide_eq_false isUpper)
      rw [same] at isLower
      exact Or.inr isLower

/-- ASCII letters fold to their small letters. -/
theorem foldLetter_of_isAlpha
    (isAlpha : c.isAlpha = true) :
    Text.foldLetter c = c.toLower := by
  have notLongS : c ≠ 'ſ' := by
    rintro rfl
    revert isAlpha
    decide
  have notKelvin : c.toNat ≠ 0x212A := by
    intro isKelvin
    have isSign : c = Char.ofNat 0x212A := by
      rw [← isKelvin, Char.ofNat_toNat]
    subst isSign
    revert isAlpha
    decide
  rw [Text.foldLetter, if_neg notLongS, if_neg notKelvin]

/-- Only the letters s and k have others that fold to them. -/
theorem foldLetter_eq_toLower
    (notS : Text.foldLetter c ≠ 's')
    (notK : Text.foldLetter c ≠ 'k') :
    Text.foldLetter c = c.toLower := by
  by_cases isLongS : c = 'ſ'
  · exact absurd (by rw [Text.foldLetter, if_pos isLongS]) notS
  · by_cases isKelvin : c.toNat = 0x212A
    · exact absurd (by rw [Text.foldLetter, if_neg isLongS, if_pos isKelvin]) notK
    · rw [Text.foldLetter, if_neg isLongS, if_neg isKelvin]

theorem isWordChar_of_isAlpha
    (isAlpha : c.isAlpha = true) :
    Text.isWordChar c = true := by
  have isAscii : c.toNat < 128 := by
    rcases Bool.or_eq_true_iff.mp isAlpha with isUpper | isLower
    · have atMost := (of_decide_eq_true isUpper).2
      exact Nat.lt_of_le_of_lt (UInt32.le_iff_toNat_le.mp atMost) (by decide)
    · have atMost := of_decide_eq_true (Bool.and_eq_true_iff.mp isLower).2
      exact Nat.lt_of_le_of_lt (UInt32.le_iff_toNat_le.mp atMost) (by decide)
  rw [Text.isWordChar, if_pos isAscii]
  exact Bool.or_eq_true_iff.mpr (Or.inl (Bool.or_eq_true_iff.mpr (Or.inl isAlpha)))

/-- A run of letters that ends where the database's words end is a word of the guard's. -/
theorem hasWord_of_run
    {run : List Char}
    {wanted : List String}
    (smallLetters : ∀ word ∈ wanted, word.toList.all Char.isLower = true)
    (hasRun : Text.HasRun Lexeme.inWord query.toList run)
    (isWanted : String.ofList (run.map Char.toLower) ∈ wanted) :
    Text.hasWord wanted query.toList = true := by
  have letters : ∀ c ∈ run, c.isAlpha = true := by
    intro c member
    refine isAlpha_of_isLower_toLower
      (List.all_eq_true.mp (smallLetters _ isWanted) c.toLower ?_)
    rw [String.toList_ofList]
    exact List.mem_map_of_mem member
  have ofOther : ∀ c, Lexeme.inWord c = false → Text.isWordChar c = false :=
    fun c otherwise => Bool.eq_false_iff.mpr fun isWordChar =>
      Bool.eq_false_iff.mp otherwise (Lexeme.inWord_of_isWordChar isWordChar)
  obtain ⟨before, after, isQuery, isRun⟩ := hasRun
  refine Text.hasWord_iff.mpr ⟨run, ⟨before, after, isQuery, isRun.someThere, ?_, ?_, ?_⟩, ?_⟩
  · exact fun c member => isWordChar_of_isAlpha (letters c member)
  · exact fun c isLast => ofOther c (isRun.endsBefore c isLast)
  · exact fun c isHead => ofOther c (isRun.endsAfter c isHead)
  · rwa [List.map_congr_left fun c member => foldLetter_of_isAlpha (letters c member)]

end Words

/-- What is put behind a query that says nothing of a limit. -/
def addedLimit : String := " LIMIT " ++ toString usualLimit

section Limit

variable {guard : Guard} {query : String}

theorem limited_of_isLimited
    (isLimited : isLimited query = true) :
    limited query = query := by
  rw [limited, if_pos isLimited]

theorem limited_of_not
    (unlimited : isLimited query = false) :
    limited query = query ++ addedLimit := by
  rw [limited, unlimited, if_neg Bool.false_ne_true, String.append_assoc]
  rfl

/-- A limit is put behind a query. -/
theorem prefix_limited (query : String) : query.toList <+: (limited query).toList := by
  cases hasLimit : isLimited query with
  | true =>
      rw [limited_of_isLimited hasLimit]
  | false =>
      rw [limited_of_not hasLimit, String.toList_append]
      exact List.prefix_append _ _

/-- The words that the limit adds to those of a query. -/
theorem hasWord_addedLimit
    (wanted : List String)
    (query : String) :
    Text.hasWord wanted (query ++ addedLimit).toList =
      (Text.hasWord wanted query.toList || Text.hasWord wanted addedLimit.toList.tail) := by
  rw [String.toList_append]
  exact Text.hasWord_append_cons wanted (by decide) _ _

/-- A query that was given a limit has the word. -/
theorem isLimited_limited (query : String) : isLimited (limited query) = true := by
  cases hasLimit : isLimited query with
  | true =>
      rwa [limited_of_isLimited hasLimit]
  | false =>
      rw [limited_of_not hasLimit, isLimited, hasWord_addedLimit, Bool.or_eq_true]
      exact Or.inr (by decide +kernel)

/-- A query that the guard lets through is not blank. -/
theorem Guard.Admits.trim_ne_nil
    (admits : guard.Admits query) :
    Text.trim query.toList ≠ [] := by
  intro isBlank
  obtain ⟨start, isStart, reads⟩ := admits.reads
  rw [Guard.readText, isBlank] at reads
  have noneEmpty : ∀ start ∈ readingStarts, start.toList ≠ [] := by
    decide
  exact noneEmpty start isStart (List.prefix_nil.mp reads)

/-- The guard lets a query through with the limit that it was given. -/
theorem Guard.Admits.limited
    (admits : guard.Admits query) :
    guard.Admits (limited query) := by
  cases hasLimit : isLimited query with
  | true =>
      rwa [limited_of_isLimited hasLimit]
  | false =>
      obtain ⟨behind, isRead⟩ := Guard.readText_append admits.trim_ne_nil addedLimit
        ((Option.all_eq_true _ _).mp (by decide)) ⟨'0', by decide, by decide⟩
      obtain ⟨start, isStart, reads⟩ := admits.reads
      obtain ⟨table, isTable, named⟩ := admits.named
      rw [limited_of_not hasLimit]
      refine ⟨?_, ⟨start, isStart, ?_⟩, ?_, ⟨table, isTable, ?_⟩⟩
      · rw [String.toList_append, List.mem_append, not_or]
        exact ⟨admits.noSemicolon, by decide⟩
      · rw [isRead]
        exact reads.trans (List.prefix_append _ _)
      · rw [hasWord_addedLimit, admits.writesNot, Bool.false_or]
        decide +kernel
      · rw [isRead]
        exact named.trans (List.infix_append' [] _ _)

/-- The limit that a query is given is a word of the database's, whatever the query ends with. -/
theorem hasRun_addedLimit
    (unlimited : isLimited query = false) :
    Text.HasRun Lexeme.inWord (limited query).toList "LIMIT".toList := by
  refine ⟨query.toList ++ [' '], " 200".toList, ?_, by decide, ?_, ?_, ?_⟩
  · rw [limited_of_not unlimited, String.toList_append, List.append_assoc, List.append_assoc]
    rfl
  · exact List.all_eq_true.mp (by decide)
  · rw [List.getLast?_concat]
    rintro c ⟨⟩
    decide
  · intro c isHead
    obtain rfl : ' ' = c := Option.some.inj isHead
    decide

end Limit

/--
A query that the guard lets through is still let through with its limit, has the limit as one
of the guard's words, and as one of the database's where it was not there before; it is given
no second one, and holds no word that writes, whatever its case, between characters that the
database's words are not made of.
-/
theorem admitted_limited
    (guard : Guard)
    (query : String)
    (accepted : guard.refusal? query = none) :
    guard.refusal? (limited query) = none ∧
      (∃ word, Text.HasRun Text.isWordChar (limited query).toList word ∧
        word.map Char.toLower = limitWord.toList) ∧
      (isLimited query = false →
        Text.HasRun Lexeme.inWord (limited query).toList "LIMIT".toList) ∧
      limited (limited query) = limited query ∧
      ∀ run, Text.HasRun Lexeme.inWord (limited query).toList run →
        String.ofList (run.map Char.toLower) ∉ writingWords := by
  have admits := (Guard.refusal?_eq_none_iff.mp accepted).limited
  have hasLimit := isLimited_limited query
  refine ⟨Guard.refusal?_eq_none_iff.mpr admits, ?_, hasRun_addedLimit,
    limited_of_isLimited hasLimit, ?_⟩
  · obtain ⟨word, hasRun, isWanted⟩ := Text.hasWord_iff.mp hasLimit
    have isLimit : word.map Text.foldLetter = limitWord.toList := by
      rw [← List.mem_singleton.mp isWanted, String.toList_ofList]
    refine ⟨word, hasRun, ?_⟩
    rw [← isLimit]
    refine List.map_congr_left fun c member => ?_
    have inLimit : Text.foldLetter c ∈ limitWord.toList := by
      rw [← isLimit]
      exact List.mem_map_of_mem member
    have notS : Text.foldLetter c ≠ 's' := ne_of_mem_of_not_mem inLimit (by decide)
    have notK : Text.foldLetter c ≠ 'k' := ne_of_mem_of_not_mem inLimit (by decide)
    exact (foldLetter_eq_toLower notS notK).symm
  · intro run hasRun isWriting
    have writes := hasWord_of_run (by decide) hasRun isWriting
    rw [admits.writesNot] at writes
    cases writes

/-- A column whose name goes on behind a word that writes. -/
theorem admitted_limited_longer_name :
    let guard := Guard.ofTables ["Users"]
    let query := "SELECT dropé FROM users "
    guard.refusal? query = none ∧
      limited query = "SELECT dropé FROM users  LIMIT 200" ∧
        guard.refusal? (limited query) = none := by
  intro guard query
  have accepted : guard.refusal? query = none := by
    decide +kernel
  exact ⟨accepted, by decide +kernel, (admitted_limited guard query accepted).1⟩

end Runbook.Database
