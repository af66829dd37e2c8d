import Runbook.Decimal.Reading
import Runbook.Json.Value

namespace Runbook.Logs

/-!
# Lines of a log

A response holds streams, each with labels and with entries.  An entry that begins with
two texts is a line: when it was written, and what it says.  The lines of all streams
are merged in the order of their times.
-/

/-- A line of a log. -/
structure Line where
  time : String
  text : String
  /-- The labels of its stream. -/
  labels : Option Json := none
  deriving DecidableEq

namespace Line

/-- A line as JSON. -/
def toJson (line : Line) : Json :=
  .record ([("ts", .str line.time), ("line", .str line.text)] ++
    (line.labels.map fun labels => ("meta", labels)).toList)

/-- The size below which a time has to stay to be read as a number. -/
def stampBound : Int := Int.pow 2 127

/-- The number that a time writes; zero if it writes none. -/
def stampOf (time : String) : Int :=
  match Decimal.integer? time.toList with
  | some value => if -stampBound ≤ value ∧ value < stampBound then value else 0
  | none => 0

/-- The number that lines are ordered by. -/
def stamp (line : Line) : Int := stampOf line.time

/-- The line of an entry. -/
def lineOf? (labels : Option Json) (entry : Json) : Option Line := do
  let time ← (entry.item? 0).bind Json.text?
  let text ← (entry.item? 1).bind Json.text?
  return ⟨time, text, labels⟩

/-- The labels of a stream. -/
def labelsOf (stream : Json) : Option Json :=
  (stream.member? "stream").filter Json.isObject

/-- The items of an array under a key. -/
def itemsAt (path : List String) (value : Json) : List Json :=
  ((value.at? path).bind Json.items?).getD []

/-- The lines of a stream. -/
def ofStream (stream : Json) : List Line :=
  (itemsAt ["values"] stream).filterMap (lineOf? (labelsOf stream))

/-- The lines of a response, stream by stream. -/
def inResponse (response : Json) : List Line :=
  (itemsAt ["data", "result"] response).flatMap ofStream

/-- The lines of a response in the order of their times; lines of the same time stay in
the order of the response. -/
def ofResponse (response : Json) : List Line :=
  (inResponse response).mergeSort fun a b => a.stamp ≤ b.stamp

end Line

end Runbook.Logs
