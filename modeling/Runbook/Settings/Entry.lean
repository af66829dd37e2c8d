import Runbook.Json.Value
import Runbook.Text.Lowercase
import Runbook.Toml.Table

namespace Runbook

/-!
# Entries and layers

Before settings have types they are entries: single values, lists and tables, each
with the place it comes from.  Layers of entries are laid over one another: tables
are joined name by name, in lower case, and anything else replaces what was there.
-/

/-- A single value. -/
inductive Scalar where
  | nothing
  | truth (value : Bool)
  | whole (number : Int)
  | real (number : Double)
  | text (content : String)
  deriving DecidableEq, Repr

/-- A value that something is set to, with where that was written. -/
inductive Entry where
  | scalar (value : Scalar) (origin : Option String)
  | list (items : List Entry) (origin : Option String)
  | table (members : List (String × Entry)) (origin : Option String)
  deriving Repr, Inhabited

namespace Entry

/-- Where the entry was written. -/
def origin : Entry → Option String
  | scalar _ origin => origin
  | list _ origin => origin
  | table _ origin => origin

/-- The table without members. -/
def empty : Entry := table [] none

/-- The members, of a table; anything else has none. -/
def members : Entry → List (String × Entry)
  | table members _ => members
  | _ => []

/-- The entry of a name. -/
def get? (members : List (String × Entry)) (name : String) : Option Entry :=
  (members.find? (·.1 == name)).map (·.2)

/-- Give a name an entry. -/
def set (name : String) (entry : Entry) : List (String × Entry) → List (String × Entry)
  | [] => [(name, entry)]
  | (other, old) :: rest =>
      if other = name then (name, entry) :: rest else (other, old) :: set name entry rest

mutual

/-- Lay an entry over what is there. -/
def lay (above : Entry) (under : Option Entry) : Entry :=
  match above with
  | scalar value origin => scalar value origin
  | list items origin => list items origin
  | table [] _ => under.getD empty
  | table (member :: rest) _ =>
      table (layMembers (member :: rest) ((under.map members).getD [])) none

/-- Lay the members of a table over those that are there. -/
def layMembers (above : List (String × Entry)) (under : List (String × Entry)) :
    List (String × Entry) :=
  match above with
  | [] => under
  | (name, entry) :: rest =>
      let key := Text.lowercase name
      layMembers rest (set key (lay entry (get? under key)) under)

end

mutual

/-- The entry of a TOML value. -/
def ofToml (origin : Option String) : Toml → Entry
  | .text content => scalar (.text content) origin
  | .whole number => scalar (.whole number) origin
  | .real number => scalar (.real number) origin
  | .truth value => scalar (.truth value) origin
  | .moment content => scalar (.text content) origin
  | .list items => list (ofTomlItems origin items) origin
  | .table _ members => table (ofTomlMembers origin members) origin
  | .tables items => list (ofTomlTables origin items) origin

/-- The entries of the items of a list. -/
def ofTomlItems (origin : Option String) : List Toml → List Entry
  | [] => []
  | item :: rest => ofToml origin item :: ofTomlItems origin rest

/-- The entries of the members of a table. -/
def ofTomlMembers (origin : Option String) : List (String × Toml) → List (String × Entry)
  | [] => []
  | (name, value) :: rest => (name, ofToml origin value) :: ofTomlMembers origin rest

/-- The entries of tables under a repeated header. -/
def ofTomlTables (origin : Option String) : List (List (String × Toml)) → List Entry
  | [] => []
  | members :: rest =>
      table (ofTomlMembers origin members) origin :: ofTomlTables origin rest

end

/-- The largest integer that is kept as one. -/
def greatestWhole : Int := 9223372036854775807

mutual

/-- The entry of a JSON value; an integer of more than 64 signed bits is a real
number. -/
def ofJson (origin : Option String) : Json → Entry
  | .null => scalar .nothing origin
  | .bool value => scalar (.truth value) origin
  | .int number =>
      if number ≤ greatestWhole then scalar (.whole number) origin
      else scalar (.real (.ofFloat (Float.ofInt number))) origin
  | .double number => scalar (.real number) origin
  | .str content => scalar (.text content) origin
  | .arr items => list (ofJsonItems origin items) origin
  | .obj members => table (ofJsonMembers origin members) origin

/-- The entries of the items of an array. -/
def ofJsonItems (origin : Option String) : List Json → List Entry
  | [] => []
  | item :: rest => ofJson origin item :: ofJsonItems origin rest

/-- The entries of the members of an object. -/
def ofJsonMembers (origin : Option String) : List (String × Json) → List (String × Entry)
  | [] => []
  | (name, value) :: rest => (name, ofJson origin value) :: ofJsonMembers origin rest

end

end Entry

end Runbook
