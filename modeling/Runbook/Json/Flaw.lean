import Runbook.Decimal.Layout
import Runbook.Text.Visible

namespace Runbook.Json

/-!
# What can be wrong with JSON

A flaw is either in the text itself or in a value that is not of the expected
shape.  A flaw that was met while reading a text knows its place there.
-/

/-- A place in a text: the line from one, and the bytes read of that line. -/
structure Place where
  line : Nat
  column : Nat
  deriving DecidableEq, Repr, Inhabited

/-- The place after one more character. -/
def Place.after (place : Place) (c : Char) : Place :=
  if c = '\n' then ⟨place.line + 1, 0⟩ else ⟨place.line, place.column + c.utf8Size⟩

/-- What was found where something else was expected. -/
inductive Found where
  | truth (value : Bool)
  | whole (value : Int)
  | real (value : Double)
  | text (value : String)
  | nothing
  | list
  | record
  deriving DecidableEq, Repr

/-- The words for what was found. -/
def Found.message : Found → String
  | .truth value => "boolean `" ++ toString value ++ "`"
  | .whole value => "integer `" ++ toString value ++ "`"
  | .real value => "floating point `" ++ Decimal.Layout.json.write value ++ "`"
  | .text value => "string " ++ Text.quoted value
  | .nothing => "null"
  | .list => "sequence"
  | .record => "map"

/-- What a value is, in a complaint about it. -/
def found : Json → Found
  | .null => .nothing
  | .bool value => .truth value
  | .int value => .whole value
  | .double value => .real value
  | .str value => .text value
  | .arr _ => .list
  | .obj _ => .record

/-- What is wrong with a text or a value. -/
inductive Flaw where
  | endInList
  | endInObject
  | endInString
  | endInValue
  | expectedColon
  | expectedCommaInList
  | expectedCommaInObject
  | expectedIdent
  | expectedValue
  | invalidEscape
  | invalidNumber
  | numberOutOfRange
  | controlCharacter
  | keyNotString
  | loneSurrogate
  | unfinishedSurrogate
  | trailingComma
  | trailingCharacters
  | tooDeep
  | missingField (name : String)
  | duplicateField (name : String)
  | unknownVariant (name : String) (known : List String)
  | invalidType (found : Found) (expected : String)
  | invalidValue (found : Found) (expected : String)
  | invalidLength (count : Nat) (expected : String)
  deriving DecidableEq, Repr

/-- A choice of names, as a complaint lists it. -/
def alternatives : List String → String
  | [] => "there are no variants"
  | [one] => "expected `" ++ one ++ "`"
  | [one, other] => "expected `" ++ one ++ "` or `" ++ other ++ "`"
  | many => "expected one of " ++ ", ".intercalate (many.map fun name => "`" ++ name ++ "`")

/-- The words for a flaw. -/
def Flaw.message : Flaw → String
  | .endInList => "EOF while parsing a list"
  | .endInObject => "EOF while parsing an object"
  | .endInString => "EOF while parsing a string"
  | .endInValue => "EOF while parsing a value"
  | .expectedColon => "expected `:`"
  | .expectedCommaInList => "expected `,` or `]`"
  | .expectedCommaInObject => "expected `,` or `\x7d`"
  | .expectedIdent => "expected ident"
  | .expectedValue => "expected value"
  | .invalidEscape => "invalid escape"
  | .invalidNumber => "invalid number"
  | .numberOutOfRange => "number out of range"
  | .controlCharacter =>
      "control character (\\u0000-\\u001F) found while parsing a string"
  | .keyNotString => "key must be a string"
  | .loneSurrogate => "lone leading surrogate in hex escape"
  | .unfinishedSurrogate => "unexpected end of hex escape"
  | .trailingComma => "trailing comma"
  | .trailingCharacters => "trailing characters"
  | .tooDeep => "recursion limit exceeded"
  | .missingField name => "missing field `" ++ name ++ "`"
  | .duplicateField name => "duplicate field `" ++ name ++ "`"
  | .unknownVariant name known =>
      "unknown variant `" ++ name ++ "`, " ++ alternatives known
  | .invalidType found expected =>
      "invalid type: " ++ found.message ++ ", expected " ++ expected
  | .invalidValue found expected =>
      "invalid value: " ++ found.message ++ ", expected " ++ expected
  | .invalidLength count expected =>
      "invalid length " ++ toString count ++ ", expected " ++ expected

/-- A flaw with its place, if it has one. -/
structure Complaint where
  flaw : Flaw
  place : Option Place := none
  deriving DecidableEq, Repr

/-- The words for a complaint. -/
def Complaint.message (complaint : Complaint) : String :=
  match complaint.place with
  | none => complaint.flaw.message
  | some place =>
      complaint.flaw.message ++ " at line " ++ toString place.line ++ " column " ++
        toString place.column

/-- The complaint at a place, unless it has one already. -/
def Complaint.orAt (complaint : Complaint) (place : Place) : Complaint :=
  match complaint.place with
  | none => { complaint with place := some place }
  | some _ => complaint

end Runbook.Json
