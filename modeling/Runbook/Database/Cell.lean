import Runbook.Decimal.Layout
import Runbook.Json.Value
import Runbook.Text.Search
import Runbook.Text.Utf8

namespace Runbook.Database

/-!
# What stands in a table

A cell is empty, a number, a text or a blob.  The type that a column declares gives it
an affinity, which turns numbers into the kind that the column prefers.  Cells are
ordered by kind first: empty ones, numbers, texts, blobs.
-/

/-- What stands in one place of a table. -/
inductive Cell where
  | empty
  | integer (value : Int)
  | real (value : Double)
  | text (value : String)
  | blob (bytes : Text.Bytes)
  deriving DecidableEq, Repr

/-- The kind of cell that a column prefers. -/
inductive Affinity where
  | integer
  | text
  | blob
  | real
  | numeric
  deriving DecidableEq, Repr

namespace Affinity

/-- Whether one of some texts occurs in the name of a type. -/
def mentions (type : List Char) (parts : List String) : Bool :=
  parts.any fun part => Text.occursIn part.toList type

/-- The affinity of a column that is declared with a type. -/
def ofType (type : String) : Affinity :=
  let type := type.toList.map Char.toUpper
  if mentions type ["INT"] then integer
  else if mentions type ["CHAR", "CLOB", "TEXT"] then text
  else if type.isEmpty || mentions type ["BLOB"] then blob
  else if mentions type ["REAL", "FLOA", "DOUB"] then real
  else numeric

/-- The bound below which the size of an integer has to stay. -/
def integerBound : Float := 9223372036854775808.0

/-- The cell of a real number in a column that prefers integers: an integer, if it is
the same number. -/
def wholeCell (value : Double) : Cell :=
  let number := value.toFloat
  if number.floor == number && number.abs < integerBound then
    let size : Int := number.abs.toUInt64.toNat
    .integer (if number < 0 then -size else size)
  else .real value

/-- The cell that a column keeps when it is given one. -/
def store (affinity : Affinity) (cell : Cell) : Cell :=
  match affinity, cell with
  | .integer, .real value => wholeCell value
  | .numeric, .real value => wholeCell value
  | .real, .integer value => .real (.ofFloat (.ofInt value))
  | .text, .integer value => .text (toString value)
  | .text, .real value => .text (Decimal.Layout.json.write value)
  | _, cell => cell

end Affinity

namespace Cell

/-- The place of a kind of cell in the order. -/
def rank : Cell → Nat
  | empty => 0
  | integer _ => 1
  | real _ => 1
  | text _ => 2
  | blob _ => 3

/-- A number as a double. -/
def asFloat : Cell → Float
  | integer value => .ofInt value
  | real value => value.toFloat
  | _ => 0.0

/-- Whether bytes come before others, or are the same. -/
def bytesLe : Text.Bytes → Text.Bytes → Bool
  | [], _ => true
  | _ :: _, [] => false
  | a :: as, b :: bs => a < b || (a == b && bytesLe as bs)

/-- Whether a cell comes before another one, or is equal to it in the order. -/
def le (a b : Cell) : Bool :=
  match a, b with
  | integer a, integer b => a ≤ b
  | text a, text b => bytesLe (Text.toBytes a) (Text.toBytes b)
  | blob a, blob b => bytesLe a b
  | a, b => if a.rank = b.rank then a.asFloat ≤ b.asFloat else a.rank < b.rank

/-- A cell as JSON; of a blob only the size is told. -/
def toJson : Cell → Json
  | empty => .null
  | integer value => .int value
  | real value => if value.isFinite then .double value else .null
  | text value => .str value
  | blob bytes => .str ("<blob " ++ toString bytes.length ++ " bytes>")

end Cell

end Runbook.Database
