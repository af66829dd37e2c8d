import Runbook.Database.Statement
import Runbook.Database.Table

namespace Runbook.Database

/-!
# Answers to statements

The rows of an answer are those of the table, in the order that is asked for, cut off
at the limit; each has the columns that are asked for.  Rows that the order does not
tell apart stay in the order of the table.
-/

/-- One row of an answer: the cells under the names of their columns. -/
abbrev Record := List (String × Cell)

namespace Statement

/-- The position of a column that a name means. -/
def resolve (table : Table) (name : Name) : Except QueryFlaw Nat :=
  match table.position? name.text with
  | some position => .ok position
  | none => .error (.noColumn name.text name.offset)

/-- The positions of the columns that are wanted. -/
def positions (table : Table) : List Wanted → Except QueryFlaw (List Nat)
  | [] => .ok []
  | .everything :: rest => do
      return List.range table.columns.length ++ (← positions table rest)
  | .column name :: rest => do
      return (← resolve table name) :: (← positions table rest)

/-- The cell of a row at a position. -/
def cellAt (row : Row) (position : Nat) : Cell := row[position]?.getD .empty

/-- Whether a row may stand before another one: the first key that tells them apart
decides. -/
def rowLe : List (Nat × Bool) → Row → Row → Bool
  | [], _, _ => true
  | (position, descending) :: keys, a, b =>
      let before := (cellAt a position).le (cellAt b position)
      let after := (cellAt b position).le (cellAt a position)
      if before && after then rowLe keys a b
      else if descending then after
      else before

/-- Rows up to a limit. -/
def upTo (limit : Option Nat) (rows : List Row) : List Row :=
  match limit with
  | some count => rows.take count
  | none => rows

/-- The columns at positions of a row, under their names. -/
def pick (table : Table) (positions : List Nat) (row : Row) : Record :=
  positions.map fun position =>
    ((table.columns[position]?.map (·.name)).getD "", cellAt row position)

/-- The answer to a statement about a table. -/
def askTable (statement : Statement) (table : Table) : Except QueryFlaw (List Record) := do
  let columns ← positions table statement.wanted
  let keys ← statement.order.mapM fun key => do
    return (← resolve table key.name, key.descending)
  let ordered := table.rows.mergeSort (rowLe keys)
  return (upTo statement.limit ordered).map (pick table columns)

/-- The answer to a statement about a database of some tables. -/
def ask (statement : Statement) (tables : List Table) : Except QueryFlaw (List Record) :=
  match tables.find? fun table => sameName table.name statement.table.text with
  | some table => statement.askTable table
  | none => .error (.noTable statement.table.text)

end Statement

/-- The answer to a query that is put to what stands in a file, if there is a file.  It stands
for the database engine within the limits of `Statement` and `Table`. -/
def Store.ask? (store : Store) (query : String) : Option (Except QueryFlaw (List Record)) :=
  match store with
  | .missing => none
  | .foreign => some (do
      let _ ← Statement.ofQuery query
      throw .foreign)
  | .tables present => some (do
      let statement ← Statement.ofQuery query
      statement.ask present)

end Runbook.Database
