import Runbook.Text.Lowercase
import Runbook.Text.Search
import Runbook.Text.Words

namespace Runbook.Database

/-!
# The guard in front of a database

A query is let through if it begins like one that only reads, has none of the words
that write, and names one of the tables that are allowed.  A query that does not say
how many rows it wants is given a limit.
-/

/-- Why a query is refused. -/
inductive Refusal where
  | semicolon
  | notReading
  | writing
  | noAllowedTable
  deriving DecidableEq, Repr

namespace Refusal

/-- The words for the refusal. -/
def message : Refusal → String
  | semicolon => "semicolon is not allowed"
  | notReading => "only SELECT/WITH is allowed"
  | writing => "write operations are forbidden"
  | noAllowedTable => "query must target an allowlisted table"

end Refusal

/-- The words of a query that reads with which it may begin. -/
def readingStarts : List String := ["select ", "with "]

/-- The words that write. -/
def writingWords : List String :=
  ["insert", "update", "delete", "drop", "alter", "truncate", "create", "grant", "revoke",
    "attach", "detach", "pragma", "replace", "vacuum"]

/-- The word that says how many rows are wanted. -/
def limitWord : String := "limit"

/-- How many rows a query may return that does not say how many it wants. -/
def usualLimit : Nat := 200

/-- Which tables a query may name; they are kept in lower case. -/
structure Guard where
  tables : List String := []
  deriving DecidableEq, Repr

namespace Guard

/-- The guard that allows some tables. -/
def ofTables (tables : List String) : Guard := ⟨tables.map Text.lowercase⟩

/-- Why a query is refused, if it is. -/
def refusal? (guard : Guard) (query : String) : Option Refusal :=
  let low := Text.lower (Text.trim query.toList)
  if ';' ∈ query.toList then some .semicolon
  else if !readingStarts.any fun start => Text.startsWith start.toList low then some .notReading
  else if Text.hasWord writingWords query.toList then some .writing
  else if !guard.tables.any fun table => Text.occursIn table.toList low then
    some .noAllowedTable
  else none

end Guard

/-- Whether a query says how many rows it wants. -/
def isLimited (query : String) : Bool := Text.hasWord [limitWord] query.toList

/-- A query that says how many rows it wants. -/
def limited (query : String) : String :=
  if isLimited query then query else query ++ " LIMIT " ++ toString usualLimit

end Runbook.Database
