import Runbook.Text.Search

namespace Runbook.Database

/-!
# Statements

A statement asks for columns of a table, in an order and up to a number of rows.  It
is read from lexemes, which remember where they stand, since complaints name the
place.

This is a small part of what SQLite answers: `SELECT`, columns by their names or `*`,
one table, `ORDER BY` columns, and `LIMIT` a number.  Expressions, literals, quoted
names, comments, joins and conditions are none of it, so a query that has some of them
is refused here at the first such place, where SQLite goes on.
-/

/-- A part of a statement. -/
inductive Token where
  | word (text : String)
  | number (text : String)
  | mark (c : Char)
  deriving DecidableEq, Repr

namespace Token

/-- The token as it is written. -/
def written : Token → String
  | word text => text
  | number text => text
  | mark c => String.singleton c

end Token

/-- A token and how many bytes stand before it. -/
structure Lexeme where
  token : Token
  offset : Nat
  deriving DecidableEq, Repr

/-- Why a query has no answer. -/
inductive QueryFlaw where
  /-- A token that cannot stand where it stands. -/
  | unexpected (lexeme : Lexeme)
  | incomplete
  | noTable (name : String)
  | noColumn (name : String) (offset : Nat)
  /-- The file is no database. -/
  | foreign
  deriving DecidableEq, Repr

namespace QueryFlaw

/-- The place in a query that a complaint ends in. -/
def atPlace (query : String) (offset : Nat) : String :=
  " in " ++ query ++ " at offset " ++ toString offset

/-- The words for the flaw of a query. -/
def message (query : String) : QueryFlaw → String
  | unexpected lexeme =>
      "near \"" ++ lexeme.token.written ++ "\": syntax error" ++ atPlace query lexeme.offset
  | incomplete => "incomplete input"
  | noTable name => "no such table: " ++ name
  | noColumn name offset => "no such column: " ++ name ++ atPlace query offset
  | foreign => "file is not a database"

end QueryFlaw

namespace Lexeme

/-- Whether a character separates tokens. -/
def isGap (c : Char) : Bool := c == ' ' || (9 ≤ c.toNat && c.toNat ≤ 13 && c.toNat != 11)

/-- Whether a word may begin with a character. -/
def startsWord (c : Char) : Bool := c.isAlpha || c == '_' || 128 ≤ c.toNat

/-- Whether a character may stand within a word. -/
def inWord (c : Char) : Bool := startsWord c || c.isDigit || c == '$'

/-- The characters of a kind at the start of a text, and the rest. -/
def spanOf (kind : Char → Bool) (text : List Char) : List Char × List Char :=
  (text.takeWhile kind, text.dropWhile kind)

/-- The token at the start of a text, how many bytes it has, and the rest. -/
def tokenAt (c : Char) (rest : List Char) : Token × Nat × List Char :=
  if startsWord c then
    let (more, behind) := spanOf inWord rest
    (.word (String.ofList (c :: more)), Text.byteLength (c :: more), behind)
  else if c.isDigit then
    let (more, behind) := spanOf Char.isDigit rest
    (.number (String.ofList (c :: more)), Text.byteLength (c :: more), behind)
  else (.mark c, c.utf8Size, rest)

/-- The lexemes of a text that stands behind so many bytes. -/
def scan (offset : Nat) : List Char → (fuel : Nat) → List Lexeme
  | [], _ => []
  | _ :: _, 0 => []
  | c :: rest, fuel + 1 =>
      if isGap c then scan (offset + 1) rest fuel
      else
        let (token, bytes, behind) := tokenAt c rest
        ⟨token, offset⟩ :: scan (offset + bytes) behind fuel

/-- The lexemes of a query. -/
def ofQuery (query : String) : List Lexeme := scan 0 query.toList query.length

/-- Whether a lexeme is a keyword, in any case. -/
def isWord (keyword : String) (lexeme : Lexeme) : Bool :=
  match lexeme.token with
  | .word text => text.map Char.toLower == keyword
  | _ => false

/-- Whether a lexeme is a mark. -/
def isMark (c : Char) (lexeme : Lexeme) : Bool := lexeme.token == .mark c

end Lexeme

/-- A name and where it stands. -/
structure Name where
  text : String
  offset : Nat
  deriving DecidableEq, Repr

/-- What is asked for of every row. -/
inductive Wanted where
  | everything
  | column (name : Name)
  deriving DecidableEq, Repr

/-- What rows are ordered by. -/
structure SortKey where
  name : Name
  descending : Bool := false
  deriving DecidableEq, Repr

/-- A question to a database. -/
structure Statement where
  wanted : List Wanted
  table : Name
  order : List SortKey := []
  /-- How many rows are wanted; any number, if there is none. -/
  limit : Option Nat := none
  deriving DecidableEq, Repr

namespace Statement

/-- What reads a part of a statement from the start of lexemes. -/
abbrev Reading (α : Type) := List Lexeme → Except QueryFlaw (α × List Lexeme)

/-- The complaint about what is ahead. -/
def refuse {α : Type} : Reading α
  | [] => .error .incomplete
  | lexeme :: _ => .error (.unexpected lexeme)

/-- Pass over a keyword. -/
def keyword (word : String) : Reading Unit
  | [] => refuse []
  | lexeme :: rest => if lexeme.isWord word then .ok ((), rest) else refuse (lexeme :: rest)

/-- The words of SQLite that are never names unless they are quoted. -/
def reservedWords : List String :=
  ["add", "all", "alter", "and", "as", "autoincrement", "between", "case", "check",
    "collate", "commit", "constraint", "create", "default", "deferrable", "delete",
    "distinct", "drop", "else", "escape", "except", "exists", "foreign", "from", "group",
    "having", "in", "index", "insert", "intersect", "into", "is", "isnull", "join",
    "limit", "not", "nothing", "notnull", "null", "on", "or", "order", "primary",
    "references", "returning", "select", "set", "table", "then", "to", "transaction",
    "union", "unique", "update", "using", "values", "when", "where"]

/-- Whether a word is kept for statements themselves, in any case. -/
def isReserved (word : String) : Bool := reservedWords.contains (word.map Char.toLower)

/-- Read a name. -/
def name : Reading Name
  | ⟨.word text, offset⟩ :: rest =>
      if isReserved text then refuse (⟨.word text, offset⟩ :: rest)
      else .ok (⟨text, offset⟩, rest)
  | lexemes => refuse lexemes

/-- Read what is wanted of a row. -/
def wantedItem : Reading Wanted
  | [] => refuse []
  | lexeme :: rest =>
      if lexeme.isMark '*' then .ok (.everything, rest)
      else (name (lexeme :: rest)).map fun read => (.column read.1, read.2)

/-- Read a name to order by, and the direction. -/
def sortKey (lexemes : List Lexeme) : Except QueryFlaw (SortKey × List Lexeme) := do
  let (key, rest) ← name lexemes
  match rest with
  | [] => return (⟨key, false⟩, [])
  | next :: behind =>
      if next.isWord "desc" then return (⟨key, true⟩, behind)
      else if next.isWord "asc" then return (⟨key, false⟩, behind)
      else return (⟨key, false⟩, next :: behind)

/-- Read items between commas, one at least. -/
def items {α : Type} (item : Reading α) (lexemes : List Lexeme) : (fuel : Nat) →
    Except QueryFlaw (List α × List Lexeme)
  | 0 => refuse lexemes
  | fuel + 1 => do
      let (first, rest) ← item lexemes
      match rest with
      | [] => return ([first], [])
      | next :: behind =>
          if next.isMark ',' then
            let (others, rest) ← items item behind fuel
            return (first :: others, rest)
          else return ([first], next :: behind)

/-- Read the order that is wanted, if one is. -/
def orderPart (lexemes : List Lexeme) : Except QueryFlaw (List SortKey × List Lexeme) :=
  match lexemes with
  | [] => .ok ([], [])
  | lexeme :: rest =>
      if lexeme.isWord "order" then do
        let ((), rest) ← keyword "by" rest
        items sortKey rest rest.length
      else .ok ([], lexeme :: rest)

/-- Read a number of rows; a negative one stands for any number. -/
def count (lexemes : List Lexeme) : Except QueryFlaw (Option Nat × List Lexeme) :=
  match lexemes with
  | ⟨.number text, _⟩ :: rest => .ok (some (text.toNat?.getD 0), rest)
  | ⟨.mark '-', _⟩ :: ⟨.number text, _⟩ :: rest =>
      .ok (if text.toNat?.getD 0 = 0 then some 0 else none, rest)
  | lexemes => refuse lexemes

/-- Read the number of rows that is wanted, if one is. -/
def limitPart (lexemes : List Lexeme) : Except QueryFlaw (Option Nat × List Lexeme) :=
  match lexemes with
  | [] => .ok (none, [])
  | lexeme :: rest =>
      if lexeme.isWord "limit" then count rest else .ok (none, lexeme :: rest)

/-- The statement of a query. -/
def ofQuery (query : String) : Except QueryFlaw Statement := do
  let lexemes := Lexeme.ofQuery query
  let ((), rest) ← keyword "select" lexemes
  let (wanted, rest) ← items wantedItem rest rest.length
  let ((), rest) ← keyword "from" rest
  let (table, rest) ← name rest
  let (order, rest) ← orderPart rest
  let (limit, rest) ← limitPart rest
  match rest with
  | [] => return ⟨wanted, table, order, limit⟩
  | lexeme :: _ => throw (.unexpected lexeme)

end Statement

end Runbook.Database
