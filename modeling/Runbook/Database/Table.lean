import Runbook.Database.Cell

namespace Runbook.Database

/-!
# Tables

A table has columns and rows.  If one of its columns is an integer primary key, the
rows stand in the order of the keys; otherwise they stand in the order in which they
came.

Tables are made from rows at once: there are no writes, no indexes and no views, and of
the definition of a column only its name, its type and whether it is such a key count.
-/

/-- A column of a table. -/
structure Column where
  name : String
  affinity : Affinity := .blob
  /-- Whether the column numbers the rows. -/
  isKey : Bool := false
  deriving DecidableEq, Repr

namespace Column

/-- The words after which the declared type of a column has ended. -/
def constraintWords : List String :=
  ["CONSTRAINT", "PRIMARY", "NOT", "NULL", "UNIQUE", "CHECK", "DEFAULT", "COLLATE",
    "REFERENCES", "GENERATED", "AS"]

/-- A text in ASCII capitals. -/
def capitals (text : String) : String := text.map Char.toUpper

/-- The column that a definition declares: its name, its type and its constraints. -/
def ofDefinition (definition : String) : Column :=
  match (definition.splitOn " ").filter (!·.isEmpty) with
  | [] => ⟨"", .blob, false⟩
  | name :: words =>
      let words := words.map capitals
      let type := words.takeWhile fun word => !constraintWords.contains word
      let constraints := words.drop type.length
      { name := name
        affinity := .ofType (" ".intercalate type)
        isKey := type == ["INTEGER"] && constraints.take 2 == ["PRIMARY", "KEY"] }

end Column

/-- The cells of a row, column by column. -/
abbrev Row := List Cell

/-- Columns, and rows below them. -/
structure Table where
  name : String
  columns : List Column
  rows : List Row := []
  deriving DecidableEq, Repr

namespace Table

/-- The position of the column that numbers the rows. -/
def keyPosition? (columns : List Column) : Option Nat := columns.findIdx? (·.isKey)

/-- The number in a cell of the key column. -/
def keyOf (position : Nat) (row : Row) : Option Int :=
  match row[position]? with
  | some (.integer value) => some value
  | _ => none

/-- The number of a row that brings none: the one behind the largest. -/
def nextKey (position : Nat) (rows : List Row) : Int :=
  match (rows.filterMap (keyOf position)).max? with
  | some largest => largest + 1
  | none => 1

/-- A row as the columns keep it; an empty key cell is numbered. -/
def settle (columns : List Column) (rows : List Row) (row : Row) : Row :=
  let stored := List.zipWith (fun column cell => column.affinity.store cell) columns row
  match keyPosition? columns with
  | none => stored
  | some position =>
      if stored[position]? = some .empty then
        stored.set position (.integer (nextKey position rows))
      else stored

/-- Rows in the order in which a table keeps them. -/
def arrange (columns : List Column) (rows : List Row) : List Row :=
  match keyPosition? columns with
  | none => rows
  | some position =>
      rows.mergeSort fun a b => (keyOf position a).getD 0 ≤ (keyOf position b).getD 0

/-- The table of some columns after rows have been put into it. -/
def ofRows (name : String) (columns : List Column) (rows : List Row) : Table :=
  let settled := rows.foldl (fun sofar row => sofar ++ [settle columns sofar row]) []
  ⟨name, columns, arrange columns settled⟩

end Table

/-- Whether two names are the same; the case of ASCII letters does not count. -/
def sameName (a b : String) : Bool := a.map Char.toLower == b.map Char.toLower

namespace Table

/-- The position of the column of a name. -/
def position? (table : Table) (name : String) : Option Nat :=
  table.columns.findIdx? fun column => sameName column.name name

end Table

/-- What stands where a database is looked for. -/
inductive Store where
  | missing
  /-- A file that is no database. -/
  | foreign
  | tables (tables : List Table)
  deriving DecidableEq, Repr

namespace Store

/-- What a file is that was not written as a database; an empty one is a database
without tables. -/
def ofBytes (bytes : Text.Bytes) : Store := if bytes.isEmpty then tables [] else foreign

end Store

end Runbook.Database
