import Runbook.Json.Value

namespace Runbook

/-!
# TOML tables

A TOML document is a table that its lines fill in.  What may be filled in later
depends on how a table came about: one with a header is complete but for tables of
its own, one that a header or a dotted key only passed through may still be defined,
and one that was written inline is closed.
-/

/-- How a table came about. -/
inductive TableMode where
  /-- By a header of its own. -/
  | headed
  /-- On the way to a header of another table. -/
  | implied
  /-- On the way to a dotted key. -/
  | dotted
  /-- Written as a value. -/
  | inline
  deriving DecidableEq, Repr

/-- A TOML value. -/
inductive Toml where
  | text (content : String)
  | whole (number : Int)
  | real (number : Double)
  | truth (value : Bool)
  /-- A date, a time or both, in writing. -/
  | moment (content : String)
  | list (items : List Toml)
  | table (mode : TableMode) (members : List (String × Toml))
  /-- Tables under one repeated header. -/
  | tables (items : List (List (String × Toml)))
  deriving Repr, Inhabited

namespace Toml

/-- The members of a table in order. -/
abbrev Members := List (String × Toml)

/-- Change the value of a key, which may be missing; `none` if that is refused. -/
def change (key : String) (f : Option Toml → Option Toml) : Members → Option Members
  | [] => (f none).map fun value => [(key, value)]
  | (name, value) :: rest =>
      if name = key then (f (some value)).map fun value => (name, value) :: rest
      else (change key f rest).map fun rest => (name, value) :: rest

/-- A change of a table: its mode and members. -/
abbrev Edit := TableMode → Members → Option (TableMode × Members)

/-- Change the last of some tables. -/
def changeLast (edit : Edit) (items : List Members) : Option Toml :=
  match items.reverse with
  | [] => none
  | last :: before =>
      (edit .headed last).map fun changed => .tables ((changed.2 :: before).reverse)

/-- Change the table at the end of a path, making the tables on the way that are
missing.  A dotted key may not pass through a table with a header. -/
def descend (isDotted : Bool) (edit : Edit) : List String → Edit
  | [], mode, members => edit mode members
  | key :: path, mode, members =>
      let inner := descend isDotted edit path
      let step : Option Toml → Option Toml
        | none =>
            (inner (if isDotted then .dotted else .implied) []).map fun changed =>
              .table changed.1 changed.2
        | some (.table found members) =>
            if found = .inline ∨ (isDotted ∧ found = .headed) then none
            else (inner found members).map fun changed => .table changed.1 changed.2
        | some (.tables items) => changeLast inner items
        | some _ => none
      (change key step members).map fun members => (mode, members)

/-- Give a value to a key that has none.  The tables on the way of a dotted key are
all dotted. -/
def insertAt (path : List String) (key : String) (value : Toml) : Edit :=
  let put : Edit := fun mode members =>
    if (mode == .dotted) == path.isEmpty then none
    else
      (change key (fun found => if found.isSome then none else some value) members).map
        fun members => (mode, members)
  descend true put path

/-- Begin the table of a header. -/
def beginTable (path : List String) (key : String) : Edit :=
  let start : Option Toml → Option Toml
    | none => some (.table .headed [])
    | some (.table .implied members) => some (.table .headed members)
    | some _ => none
  descend false (fun mode members => (change key start members).map (mode, ·)) path

/-- Begin the next table under a repeated header. -/
def beginItem (path : List String) (key : String) : Edit :=
  let start : Option Toml → Option Toml
    | none => some (.tables [[]])
    | some (.tables items) => some (.tables (items ++ [[]]))
    | some _ => none
  descend false (fun mode members => (change key start members).map (mode, ·)) path

/-- Give a value to a key below the table of the present header. -/
def assign (header path : List String) (key : String) (value : Toml) : Edit :=
  descend false (insertAt path key value) header

end Toml

end Runbook
