import Runbook.Decimal.Reading
import Runbook.Settings.Entry

namespace Runbook

/-!
# Places of settings

A layer names the place of each of its values by names with points between them,
where a number in brackets stands for an item of a list.  A name that is not of that
form stands for itself.
-/

/-- One step on the way to a setting. -/
inductive Segment where
  | name (name : String)
  /-- An item of a list; a negative number counts from the end. -/
  | index (index : Int)
  deriving DecidableEq, Repr

namespace Segment

/-- The characters of names in a place. -/
def isNameChar (c : Char) : Bool := c.isAlphanum || c == ' ' || c == '_' || c == '-'

/-- A name at the start of a text, and the rest. -/
def leadingName? (text : List Char) : Option (Segment × List Char) :=
  match text.span isNameChar with
  | ([], _) => none
  | (found, rest) => some (name (String.ofList found), rest)

/-- A number up to its bracket, and the rest. -/
def leadingIndex? (text : List Char) : Option (Segment × List Char) :=
  match text.span (· != ']') with
  | (found, _ :: rest) =>
      if found.head? = some '+' then none
      else (Decimal.integer? found).map fun number => (index number, rest)
  | (_, []) => none

/-- The steps behind the first name. -/
def steps? : (fuel : Nat) → List Char → Option (List Segment)
  | _, [] => some []
  | 0, _ => none
  | fuel + 1, c :: rest => do
      let (segment, rest) ←
        if c = '.' then leadingName? rest
        else if c = '[' then leadingIndex? rest
        else none
      return segment :: (← steps? fuel rest)

/-- The place that a text names. -/
def place (text : String) : List Segment :=
  let chars := text.toList
  let read : Option (List Segment) := do
    let (first, rest) ← leadingName? chars
    return first :: (← steps? rest.length rest)
  read.getD [name text]

end Segment

namespace Entry

/-- The position that a number means in a list. -/
def position (index : Int) (length : Nat) : Nat :=
  if 0 ≤ index then index.toNat else length - index.natAbs

/-- The items, of a list; anything else has none. -/
def items : Entry → List Entry
  | list items _ => items
  | _ => []

/-- Items of which there are at least so many. -/
def extend (items : List Entry) (count : Nat) : List Entry :=
  items ++ List.replicate (count - items.length) (scalar .nothing none)

/-- Put an entry at a place below what is there, making tables and lists on the way. -/
def put (entry : Entry) : List Segment → Option Entry → Entry
  | [], _ => entry
  | [.name name], under => lay (table [(name, entry)] none) under
  | .name name :: more, under =>
      let members := (under.map members).getD []
      table (set name (put entry more (get? members name)) members) none
  | .index index :: more, under =>
      let items := (under.map items).getD []
      let position := position index items.length
      let items := extend items (position + 1)
      let changed := items.modify position fun item => put entry more (some item)
      list changed ((under.map origin).getD none)

/-- Put the values of a layer at their places. -/
def putAll (layer : List (String × Entry)) (under : Entry) : Entry :=
  layer.foldl (fun under member => put member.2 (Segment.place member.1) (some under)) under

end Entry

end Runbook
