import Runbook.Json.Value
import Runbook.Decimal.Layout

namespace Runbook.Json

/-!
# JSON text

Two written forms of a value: `compact` has no blanks, `pretty` puts each item
and member on a line of its own, indented by two.  Strings escape the quote,
the backslash and the control characters, and nothing else.
-/

/-- The lower-case hexadecimal digit of a number below sixteen. -/
def hexDigit (n : Nat) : Char :=
  if n < 10 then Char.ofNat (48 + n) else Char.ofNat (87 + n)

/-- How one character stands inside a string. -/
def escape (c : Char) : List Char :=
  if c = '"' then ['\\', '"']
  else if c = '\\' then ['\\', '\\']
  else if c.toNat = 8 then ['\\', 'b']
  else if c.toNat = 12 then ['\\', 'f']
  else if c = '\n' then ['\\', 'n']
  else if c = '\r' then ['\\', 'r']
  else if c = '\t' then ['\\', 't']
  else if c.toNat < 32 then
    ['\\', 'u', '0', '0', hexDigit (c.toNat / 16), hexDigit (c.toNat % 16)]
  else [c]

/-- A string with its quotes. -/
def quote (text : String) : String :=
  String.ofList ('"' :: text.toList.flatMap escape ++ ['"'])

/-- A line end and the indentation of a depth. -/
def newline (depth : Nat) : String :=
  String.ofList ('\n' :: List.replicate (2 * depth) ' ')

mutual

/-- The text without blanks. -/
def compact : Json → String
  | .null => "null"
  | .bool value => if value then "true" else "false"
  | .int value => toString value
  | .double value => Decimal.Layout.json.write value
  | .str text => quote text
  | .arr items => "[" ++ compactItems items ++ "]"
  | .obj members => "\x7b" ++ compactMembers members ++ "\x7d"

/-- Items without blanks, with commas between them. -/
def compactItems : List Json → String
  | [] => ""
  | item :: rest =>
      match rest with
      | [] => compact item
      | _ :: _ => compact item ++ "," ++ compactItems rest

/-- Members without blanks, with commas between them. -/
def compactMembers : List (String × Json) → String
  | [] => ""
  | (key, value) :: rest =>
      match rest with
      | [] => quote key ++ ":" ++ compact value
      | _ :: _ => quote key ++ ":" ++ compact value ++ "," ++ compactMembers rest

end

mutual

/-- The indented text, from a given depth on. -/
def prettyFrom (depth : Nat) : Json → String
  | .null => "null"
  | .bool value => if value then "true" else "false"
  | .int value => toString value
  | .double value => Decimal.Layout.json.write value
  | .str text => quote text
  | .arr [] => "[]"
  | .obj [] => "\x7b\x7d"
  | .arr (item :: rest) =>
      "[" ++ newline (depth + 1) ++ prettyFrom (depth + 1) item ++
        prettyItems (depth + 1) rest ++ newline depth ++ "]"
  | .obj ((key, value) :: rest) =>
      "\x7b" ++ newline (depth + 1) ++ quote key ++ ": " ++
        prettyFrom (depth + 1) value ++ prettyMembers (depth + 1) rest ++
        newline depth ++ "\x7d"

/-- The items after the first, each on its line. -/
def prettyItems (depth : Nat) : List Json → String
  | [] => ""
  | item :: rest =>
      "," ++ newline depth ++ prettyFrom depth item ++ prettyItems depth rest

/-- The members after the first, each on its line. -/
def prettyMembers (depth : Nat) : List (String × Json) → String
  | [] => ""
  | (key, value) :: rest =>
      "," ++ newline depth ++ quote key ++ ": " ++ prettyFrom depth value ++
        prettyMembers depth rest

end

/-- The text with one item or member a line. -/
def pretty (value : Json) : String := prettyFrom 0 value

end Runbook.Json
