import Runbook.Database.Answer
import Runbook.Database.Guard
import Runbook.Toolbox.Input

namespace Runbook.Toolbox.Query

/-!
# The tool that asks a database

It puts a query that only reads to a database.  A query that the guard refuses, or that
has no answer, gives the model a reason; a database that cannot be opened is a failure
of the tool.
-/

open Database (Guard Store Record)

/-- The input: a query. -/
def form : InputForm :=
  ⟨"ReadonlyQueryInput",
    [⟨"sql", "只读 SQL（仅 SELECT / WITH），大表请自带 LIMIT", .text, false⟩]⟩

/-- A row of an answer as JSON. -/
def recordJson (record : Record) : Json :=
  .record (record.map fun column => (column.1, column.2.toJson))

/-- An answer as JSON. -/
def answerJson (rows : List Record) : Json :=
  .record
    [ ("success", .bool true), ("count", .int rows.length),
      ("rows", .arr (rows.map recordJson)) ]

/-- Ask the database at a path. -/
def run (guard : Guard) (path : String) (store : Store) (input : Json) : ToolResult := do
  let fields ← form.parse input
  let query := Text.trimmed (fields.textAt "sql")
  if query.isEmpty then return failureText "sql is empty"
  match guard.refusal? query with
  | some refusal => return failureText refusal.message
  | none =>
      let query := Database.limited query
      match store.ask? query with
      | none => throw ("db open failed: unable to open database file: " ++ path)
      | some (.error flaw) => return failureText (flaw.message query)
      | some (.ok rows) => return (answerJson rows).pretty

end Runbook.Toolbox.Query
