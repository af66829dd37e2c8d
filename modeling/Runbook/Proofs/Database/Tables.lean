import Mathlib
import Runbook.Proofs.Database.Guard
import Runbook.Proofs.Database.Statement
import Runbook.Toolbox.Query

namespace Runbook.Database

/-!
# Which tables are let through

The guard looks for the names of the tables that are allowed anywhere in a query.  In a query
that is a statement, such a name occurs in one of the words; but the word need not be the
table's, and the name need not be all of it.  This module says what the guard knows of the
table of a statement: it is allowed, or an allowed name has strayed to another place.
-/

open Lexeme

section Spaced

variable {name text first second : List Char} {c : Char}

/-- A text is words, with gaps and marks between them. -/
def IsSpaced (text : List Char) : Prop :=
  ∀ c ∈ text, inWord c = true ∨ c ∈ gaps ++ plainMarks

theorem IsSpaced.of_sublist
    {part : List Char}
    (spaced : IsSpaced text)
    (isPart : part.Sublist text) :
    IsSpaced part :=
  fun c member => spaced c (isPart.subset member)

/-- What stands between words has no case and stays as it is. -/
theorem IsSpaced.between
    (spaced : IsSpaced text)
    (member : c ∈ text)
    (otherwise : inWord c = false) :
    Text.endsCase c = true ∧ Text.lowerChar c = [c] := by
  have allEnd :
      ((gaps ++ plainMarks).all fun d => Text.endsCase d && Text.lowerChar d == [d]) = true := by
    decide +kernel
  rcases spaced c member with inWord | isBetween
  · rw [inWord] at otherwise
    cases otherwise
  · simpa using List.all_eq_true.mp allEnd c isBetween

/-- A text that starts a longer one ends before a character that it does not have. -/
theorem prefix_of_prefix_append_cons
    (notMember : c ∉ name)
    (starts : name <+: first ++ c :: second) :
    name <+: first := by
  have alsoStarts : first ++ [c] <+: first ++ c :: second :=
    ⟨second, by rw [List.append_assoc, List.singleton_append]⟩
  rcases List.prefix_or_prefix_of_prefix starts alsoStarts with within | ⟨more, isName⟩
  · rcases List.prefix_concat_iff.mp within with isName | within
    · exact absurd (by simp [isName]) notMember
    · exact within
  · exact absurd (by simp [← isName]) notMember

/-- A text occurs before or behind a character that it does not have. -/
theorem infix_or_infix_of_append_cons
    (someThere : name ≠ [])
    (notMember : c ∉ name)
    (occurs : name <:+: first ++ c :: second) :
    name <:+: first ∨ name <:+: second := by
  induction first with
  | nil =>
      rcases List.infix_cons_iff.mp occurs with starts | later
      · have isNil : name <+: [] := prefix_of_prefix_append_cons notMember starts
        exact absurd (List.prefix_nil.mp isNil) someThere
      · exact Or.inr later
  | cons d first inductionHypothesis =>
      rw [List.cons_append] at occurs
      rcases List.infix_cons_iff.mp occurs with starts | later
      · exact Or.inl (prefix_of_prefix_append_cons notMember starts).isInfix
      · exact (inductionHypothesis later).imp_left List.infix_cons

/-- A name that occurs in a text in lower case occurs in one of its words. -/
theorem exists_run_of_infix
    (someThere : name ≠ [])
    (ofWord : ∀ c ∈ name, inWord c = true)
    (spaced : IsSpaced text)
    (occurs : name <:+: Text.lower text) :
    ∃ word, Text.HasRun inWord text word ∧ name <:+: Text.lower word := by
  induction isLength : text.length using Nat.strongRecOn generalizing text with
  | ind length inductionHypothesis =>
      subst isLength
      -- The text is cut behind its first word, at a character that no name has.
      have isText : text.takeWhile inWord ++ text.dropWhile inWord = text :=
        List.takeWhile_append_dropWhile
      have firstWord
          (occursFirst : name <:+: Text.lower (text.takeWhile inWord)) :
          ∃ word, Text.HasRun inWord text word ∧ name <:+: Text.lower word := by
        refine ⟨text.takeWhile inWord, Text.hasRun_takeWhile ?_, occursFirst⟩
        intro isNil
        rw [isNil] at occursFirst
        exact someThere (List.infix_nil.mp occursFirst)
      cases isRest : text.dropWhile inWord with
      | nil =>
          rw [isRest, List.append_nil] at isText
          exact firstWord (by rwa [isText])
      | cons c rest =>
          have otherwise : inWord c = false :=
            Text.forall_head?_dropWhile inWord text c (by rw [isRest]; rfl)
          rw [isRest] at isText
          have restPart : rest.Sublist text := by
            rw [← isText]
            exact (List.sublist_cons_self c rest).trans (List.sublist_append_right _ _)
          have shorter : rest.length < text.length := by
            rw [← isText, List.length_append, List.length_cons]
            omega
          obtain ⟨ends, same⟩ := spaced.between (by rw [← isText]; simp) otherwise
          have notMember : c ∉ name := by
            intro member
            rw [ofWord c member] at otherwise
            cases otherwise
          rw [← isText, Text.lower_append_cons ends, same, List.append_assoc,
            List.singleton_append] at occurs
          rcases infix_or_infix_of_append_cons someThere notMember occurs with inFirst | later
          · exact firstWord inFirst
          · obtain ⟨word, hasRun, occursThere⟩ :=
              inductionHypothesis _ shorter (spaced.of_sublist restPart) later rfl
            refine ⟨word, ?_, occursThere⟩
            rw [← isText]
            exact hasRun.behind otherwise _

/-- What occurs in a word of a text in lower case occurs in the text. -/
theorem infix_of_run
    {word : List Char}
    (spaced : IsSpaced text)
    (hasRun : Text.HasRun inWord text word)
    (occurs : name <:+: Text.lower word) :
    name <:+: Text.lower text := by
  obtain ⟨before, after, rfl, isRun⟩ := hasRun
  have lastEnds : ∀ c ∈ before.getLast?, Text.endsCase c = true := by
    intro c isLast
    refine (spaced.between ?_ (isRun.endsBefore c isLast)).1
    simp [List.mem_of_getLast? isLast]
  have headEnds : ∀ c ∈ after.head?, Text.endsCase c = true := by
    intro c isHead
    refine (spaced.between ?_ (isRun.endsAfter c isHead)).1
    simp [List.mem_of_mem_head? isHead]
  rw [Text.lower_append_of_head headEnds, Text.lower_append_of_last lastEnds]
  exact occurs.trans (List.infix_append _ _ _)

end Spaced

/-- A text that can be the name of a table is one word. -/
def IsName (name : List Char) : Prop := name ≠ [] ∧ ∀ c ∈ name, inWord c = true

/-- An allowed name occurs in a query about a table, but not as the name of the table. -/
inductive Strays (query table allowed : String) : Prop where
  /-- It is no word, and so no name that a statement could have. -/
  | noName
      (notName : ¬ IsName allowed.toList)
      (occurs : allowed.toList <:+: Guard.readText query)
  /-- It occurs in a word that is another one, or in the table's without being all of it. -/
  | otherWord
      (word : List Char)
      (isWord : Text.HasRun inWord (Text.trim query.toList) word)
      (occurs : allowed.toList <:+: Text.lower word)
      (other : word = table.toList → allowed ≠ Text.lowercase table)

variable {query table allowed : String}

/-- Where an allowed name occurs it is the table's, or it strays. -/
theorem strays_or_eq
    (spaced : IsSpaced query.toList)
    (occurs : allowed.toList <:+: Guard.readText query)
    (table : String) :
    Strays query table allowed ∨ allowed = Text.lowercase table := by
  by_cases isName : IsName allowed.toList
  · obtain ⟨word, isWord, occursThere⟩ :=
      exists_run_of_infix isName.1 isName.2 (spaced.of_sublist (Text.trim_sublist _)) occurs
    by_cases isTable : word = table.toList → allowed ≠ Text.lowercase table
    · exact Or.inl (.otherWord word isWord occursThere isTable)
    · exact Or.inr (not_not.mp (Classical.not_imp.mp isTable).2)
  · exact Or.inl (.noName isName occurs)

/-- A name that strays occurs. -/
theorem Strays.occurs
    (strays : Strays query table allowed)
    (spaced : IsSpaced query.toList) :
    allowed.toList <:+: Guard.readText query := by
  cases strays with
  | noName _ occurs =>
      exact occurs
  | otherWord word isWord occurs _ =>
      exact infix_of_run (spaced.of_sublist (Text.trim_sublist _)) isWord occurs

/-- A query begins like one that reads and has no word that writes. -/
def OnlyReads (query : String) : Prop :=
  (∃ start ∈ readingStarts, start.toList <+: Guard.readText query) ∧
    Text.hasWord writingWords query.toList = false

namespace Guard

variable {guard : Guard}

/-- A table is one of those that are allowed; the case of letters does not count. -/
def Allows (guard : Guard) (table : String) : Prop := Text.lowercase table ∈ guard.tables

/-- An allowed name strays in a query about a table. -/
def StraysIn (guard : Guard) (query table : String) : Prop :=
  ∃ allowed ∈ guard.tables, Strays query table allowed

/-- A query with words, gaps and marks is let through if an allowed name occurs in it. -/
theorem admits_of_occurs
    (spaced : IsSpaced query.toList)
    (onlyReads : OnlyReads query)
    (isAllowed : allowed ∈ guard.tables)
    (occurs : allowed.toList <:+: readText query) :
    guard.Admits query := by
  refine ⟨?_, onlyReads.1, onlyReads.2, ⟨allowed, isAllowed, occurs⟩⟩
  intro member
  rcases spaced ';' member with ofWord | isBetween
  · revert ofWord
    decide
  · revert isBetween
    decide

/-- What names an allowed table names the table in question, or strays. -/
theorem Admits.allows_or_strays
    (admits : guard.Admits query)
    (spaced : IsSpaced query.toList)
    (table : String) :
    guard.Allows table ∨ guard.StraysIn query table := by
  obtain ⟨allowed, isAllowed, occurs⟩ := admits.named
  rcases strays_or_eq spaced occurs table with strays | rfl
  · exact Or.inr ⟨allowed, isAllowed, strays⟩
  · exact Or.inl isAllowed

/-- The database takes no names for the same that differ for the guard. -/
theorem allows_congr
    {name other : String}
    (same : sameName name other = true) :
    guard.Allows name ↔ guard.Allows other := by
  have sameText : name.toList.map Char.toLower = other.toList.map Char.toLower := by
    rw [← String.toList_map, ← String.toList_map, eq_of_beq same]
  rw [Allows, Allows, Text.lowercase, Text.lowercase, Text.lower_congr sameText]

instance (guard : Guard) (table : String) : Decidable (guard.Allows table) :=
  inferInstanceAs (Decidable (_ ∈ guard.tables))

/-- The tables of a database that are allowed. -/
def allowedOf (guard : Guard) (tables : List Table) : List Table :=
  tables.filter fun table => guard.Allows table.name

/-- A table with an allowed name is looked for among the allowed ones. -/
theorem find?_allowedOf
    (allows : guard.Allows table)
    (tables : List Table) :
    ((guard.allowedOf tables).find? fun present => sameName present.name table) =
      tables.find? fun present => sameName present.name table := by
  rw [allowedOf, List.find?_filter]
  congr 1
  funext present
  by_cases same : sameName present.name table = true
  · simp [same, (allows_congr same).mpr allows]
  · simp [same]

end Guard

/-- Databases that hold the same under the table of a statement have the same answer. -/
theorem ask?_congr
    {first second : List Table}
    (same : ∀ statement, Statement.ofQuery query = .ok statement →
      (first.find? fun table => sameName table.name statement.table.text) =
        second.find? fun table => sameName table.name statement.table.text) :
    Store.ask? (.tables first) query = Store.ask? (.tables second) query := by
  rw [Store.ask?, Store.ask?]
  cases isStatement : Statement.ofQuery query with
  | error flaw =>
      rfl
  | ok statement =>
      have sameTable := same statement isStatement
      show some (statement.ask first) = some (statement.ask second)
      rw [Statement.ask, Statement.ask, sameTable]

/-- The query of an input to the tool. -/
def askedQuery (fields : Json) : String := Text.trimmed (fields.textAt "sql")

/-- The tool looks only at the tables of the statements that the guard lets through. -/
theorem run_congr
    {guard : Guard}
    {first second : List Table}
    {input : Json}
    (same : ∀ fields statement, Toolbox.Query.form.parse input = .ok fields →
      guard.refusal? (askedQuery fields) = none →
        Statement.ofQuery (limited (askedQuery fields)) = .ok statement →
          (first.find? fun table => sameName table.name statement.table.text) =
            second.find? fun table => sameName table.name statement.table.text)
    (path : String) :
    Toolbox.Query.run guard path (.tables first) input =
      Toolbox.Query.run guard path (.tables second) input := by
  unfold Toolbox.Query.run
  refine bind_congr_of_ok fun fields isParsed => ?_
  rw [← askedQuery]
  by_cases isEmpty : (askedQuery fields).isEmpty = true
  · rw [if_pos isEmpty, if_pos isEmpty]
  · rw [if_neg isEmpty, if_neg isEmpty]
    cases passes : guard.refusal? (askedQuery fields) with
    | some refusal =>
        rfl
    | none =>
        dsimp only
        rw [ask?_congr fun statement => same fields statement isParsed passes]

/--
A statement that the guard lets through is about an allowed table, or an allowed name strays
in it.  A name that strays is all that the guard asks for, whatever the table is; and an allowed
table may be read by every query without blanks around it.  So where no allowed name strays, the
tool gives the same answer for all databases with the same allowed tables.
-/
theorem allows_or_straysIn
    (guard : Guard) :
    (∀ query statement, Statement.ofQuery query = .ok statement →
      (guard.refusal? query = none →
        guard.Allows statement.table.text ∨ guard.StraysIn query statement.table.text) ∧
      (OnlyReads query → guard.StraysIn query statement.table.text →
        guard.refusal? query = none) ∧
      (OnlyReads query → Text.trim query.toList = query.toList →
        guard.Allows statement.table.text → guard.refusal? query = none)) ∧
      ∀ path first second input, guard.allowedOf first = guard.allowedOf second →
        (∀ fields statement, Toolbox.Query.form.parse input = .ok fields →
          Statement.ofQuery (limited (askedQuery fields)) = .ok statement →
            ¬ guard.StraysIn (askedQuery fields) statement.table.text) →
        Toolbox.Query.run guard path (.tables first) input =
          Toolbox.Query.run guard path (.tables second) input := by
  constructor
  · intro query statement isStatement
    have spaced : IsSpaced query.toList := Statement.characters_of_ofQuery isStatement
    refine ⟨fun accepted => ?_, fun onlyReads strays => ?_, fun onlyReads isTrimmed allows => ?_⟩
    · exact (Guard.refusal?_eq_none_iff.mp accepted).allows_or_strays spaced _
    · obtain ⟨allowed, isAllowed, strays⟩ := strays
      exact Guard.refusal?_eq_none_iff.mpr
        (Guard.admits_of_occurs spaced onlyReads isAllowed (strays.occurs spaced))
    · refine Guard.refusal?_eq_none_iff.mpr (Guard.admits_of_occurs spaced onlyReads allows ?_)
      rw [Guard.readText, isTrimmed, Text.lowercase, String.toList_ofList]
      exact infix_of_run spaced (Statement.hasRun_table isStatement) List.infix_rfl
  · intro path first second input sameTables noStray
    refine run_congr (fun fields statement isParsed accepted isStatement => ?_) path
    -- The statement is that of the query with its limit, the guard has read the one without.
    have limitedSpaced : IsSpaced (limited (askedQuery fields)).toList :=
      Statement.characters_of_ofQuery isStatement
    have spaced := limitedSpaced.of_sublist (prefix_limited (askedQuery fields)).sublist
    have admits := Guard.refusal?_eq_none_iff.mp accepted
    rcases admits.allows_or_strays spaced statement.table.text with allows | strays
    · rw [← Guard.find?_allowedOf allows first, ← Guard.find?_allowedOf allows second, sameTables]
    · exact absurd strays (noStray fields statement isParsed isStatement)

/-- The input that asks a query. -/
def asking (query : String) : Json := .record [("sql", .str query)]

/-- A table that is allowed. -/
def usersTable : Table := .ofRows "users" [⟨"name", .text, false⟩] [[.text "alice"]]

/-- A table that is not allowed, with a column that is named as the one that is. -/
def secretsTable : Table := .ofRows "secrets" [⟨"users", .text, false⟩] [[.text "alice"]]

/-- The name of the allowed table stands in one place, so no other table is looked at. -/
theorem allows_or_straysIn_users :
    let guard := Guard.ofTables ["Users"]
    let query := "SELECT name FROM USERS"
    guard.refusal? query = none ∧ ¬ guard.StraysIn query "USERS" ∧ guard.Allows "USERS" ∧
      Toolbox.Query.run guard "ops.db" (.tables [usersTable, secretsTable]) (asking query) =
        Toolbox.Query.run guard "ops.db" (.tables [usersTable]) (asking query) := by
  intro guard query
  have accepted : guard.refusal? query = none := by
    decide +kernel
  have onlyTable :
      ∀ word ∈ Text.runs inWord (Text.trim query.toList),
        "users".toList <:+: Text.lower word → word = "USERS".toList := by
    decide +kernel
  have noStray : ¬ guard.StraysIn query "USERS" := by
    rintro ⟨allowed, isAllowed, strays⟩
    have isUsers : allowed = "users" := by
      have onlyName : guard.tables = ["users"] := by
        decide +kernel
      rwa [onlyName, List.mem_singleton] at isAllowed
    subst isUsers
    cases strays with
    | noName notName _ =>
        exact notName ⟨by decide, List.all_eq_true.mp (by decide)⟩
    | otherWord word isWord occurs other =>
        refine other (onlyTable word (Text.mem_runs_iff.mpr isWord) occurs) ?_
        decide +kernel
  have isStatement :
      Statement.ofQuery query = .ok ⟨[.column ⟨"name", 7⟩], ⟨"USERS", 17⟩, [], none⟩ := by
    decide +kernel
  obtain ⟨ofStatement, ofInput⟩ := allows_or_straysIn guard
  have allows := ((ofStatement query _ isStatement).1 accepted).resolve_right noStray
  have isParsed : Toolbox.Query.form.parse (asking query) = .ok (asking query) := by
    decide +kernel
  have isAsked : askedQuery (asking query) = query := by
    decide +kernel
  have isLimited : limited query = "SELECT name FROM USERS LIMIT 200" := by
    decide +kernel
  have isLimitedStatement :
      Statement.ofQuery "SELECT name FROM USERS LIMIT 200" =
        .ok ⟨[.column ⟨"name", 7⟩], ⟨"USERS", 17⟩, [], some 200⟩ := by
    cbv
  refine ⟨accepted, noStray, allows, ofInput "ops.db" _ _ _ (by decide +kernel) ?_⟩
  intro fields statement isFields ofFields
  rw [isParsed] at isFields
  cases isFields
  rw [isAsked, isLimited, isLimitedStatement] at ofFields
  cases ofFields
  rwa [isAsked]

/-- An allowed table is the name of a column, and what is read is a table that is not. -/
theorem reads_secrets_of_users :
    let guard := Guard.ofTables ["users"]
    let query := "SELECT users FROM secrets"
    guard.refusal? query = none ∧
      (∃ statement, Statement.ofQuery query = .ok statement ∧
        statement.table.text = "secrets" ∧ ¬ guard.Allows statement.table.text) ∧
      Toolbox.Query.run guard "ops.db" (.tables [secretsTable]) (asking query) =
        .ok (Toolbox.Query.answerJson [[("users", .text "alice")]]).pretty := by
  intro guard query
  have accepted : guard.refusal? query = none := by
    decide +kernel
  refine ⟨accepted, ⟨⟨[.column ⟨"users", 7⟩], ⟨"secrets", 18⟩, [], none⟩, ?_, rfl, ?_⟩, ?_⟩
  · decide +kernel
  · unfold Guard.Allows
    decide +kernel
  · have isParsed : Toolbox.Query.form.parse (asking query) = .ok (asking query) := by
      decide +kernel
    have isAsked : Text.trimmed ((asking query).textAt "sql") = query := by
      decide +kernel
    have isLimited : limited query = "SELECT users FROM secrets LIMIT 200" := by
      decide +kernel
    have isAnswered :
        Store.ask? (.tables [secretsTable]) "SELECT users FROM secrets LIMIT 200" =
          some (.ok [[("users", .text "alice")]]) := by
      cbv
    unfold Toolbox.Query.run
    rw [isParsed]
    dsimp only [bind, Except.bind]
    rw [isAsked, if_neg (by decide), accepted]
    dsimp only
    rw [isLimited, isAnswered]
    rfl

end Runbook.Database
