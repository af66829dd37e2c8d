import Runbook.Json.Flaw

namespace Runbook.Json

/-!
# Reading a text from left to right

A cursor is the rest of a text with its place.  A flaw is reported either where
the cursor stands or, when it is the next byte that is wrong, just behind that
byte.
-/

/-- The rest of a text, and the place where it starts. -/
structure Cursor where
  rest : List Char
  place : Place
  deriving DecidableEq, Repr

/-- The cursor at the start of a text. -/
def Cursor.start (text : List Char) : Cursor := ⟨text, ⟨1, 0⟩⟩

/-- The place a number of bytes further, within the text. -/
def Place.afterBytes (place : Place) : (text : List Char) → (bytes : Nat) → Place
  | _, 0 => place
  | [], _ => place
  | c :: rest, bytes + 1 =>
      if c = '\n' then Place.afterBytes ⟨place.line + 1, 0⟩ rest bytes
      else if c.utf8Size ≤ bytes + 1 then
        Place.afterBytes (place.after c) rest (bytes + 1 - c.utf8Size)
      else ⟨place.line, place.column + bytes + 1⟩

/-- The place just behind the next byte. -/
def Cursor.nextPlace (cursor : Cursor) : Place := cursor.place.afterBytes cursor.rest 1

/-- The blanks of JSON. -/
def isGap (c : Char) : Bool := c == ' ' || c == '\n' || c == '\t' || c == '\r'

/-- The cursor behind the blanks ahead. -/
def Cursor.overGaps : List Char → Place → Cursor
  | [], place => ⟨[], place⟩
  | c :: rest, place =>
      if isGap c then Cursor.overGaps rest (place.after c) else ⟨c :: rest, place⟩

/-- A reader of text. -/
abbrev Reader := StateT Cursor (Except Complaint)

namespace Reader

/-- The character ahead. -/
def peek : Reader (Option Char) := do return (← get).rest.head?

/-- Step over the character ahead. -/
def skip : Reader Unit :=
  modify fun cursor =>
    match cursor.rest with
    | [] => cursor
    | c :: rest => ⟨rest, cursor.place.after c⟩

/-- A flaw where the cursor stands. -/
def failHere {α : Type} (flaw : Flaw) : Reader α := do
  throw ⟨flaw, some (← get).place⟩

/-- A flaw in the byte ahead. -/
def failNext {α : Type} (flaw : Flaw) : Reader α := do
  throw ⟨flaw, some (← get).nextPlace⟩

/-- A flaw a number of bytes ahead. -/
def failAfter {α : Type} (bytes : Nat) (flaw : Flaw) : Reader α := do
  let cursor ← get
  throw ⟨flaw, some (cursor.place.afterBytes cursor.rest bytes)⟩

/-- A flaw in the byte ahead, or where the text ends if none is ahead. -/
def failNextOr {α : Type} (atEnd flaw : Flaw) : Reader α := do
  match ← peek with
  | none => failHere atEnd
  | some _ => failNext flaw

/-- Step over blanks and look at the character ahead. -/
def skipGaps : Reader (Option Char) := do
  modify fun cursor => Cursor.overGaps cursor.rest cursor.place
  peek

/-- Read the characters of a word whose first is already read. -/
def word : List Char → Reader Unit
  | [] => pure ()
  | c :: rest => do
      match ← peek with
      | none => failHere .endInValue
      | some d => if c = d then skip; word rest else failNext .expectedIdent

end Reader

end Runbook.Json
