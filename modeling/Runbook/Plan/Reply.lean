import Runbook.Plan.Step

namespace Runbook

/-!
# Replies of a model

A reply is prose around a JSON object.  The object is taken from the first code
block that is marked as JSON, or else reaches from the first opening brace to
the last closing one.
-/

namespace Reply

/-- The mark that opens a code block of JSON. -/
def openMark : List Char := ['`', '`', '`', 'j', 's', 'o', 'n']

/-- The mark that closes a code block. -/
def closeMark : List Char := ['`', '`', '`']

/-- The opening brace. -/
def openBrace : Char := '{'

/-- The closing brace. -/
def closeBrace : Char := '}'

/-- The JSON text within a reply. -/
def object? (reply : List Char) : Option (List Char) :=
  let text := Text.trim reply
  match Text.splitFirst? openMark text with
  | some (_, block) =>
      match Text.splitFirst? closeMark block with
      | some (inside, _) => some (Text.trim inside)
      | none => some (Text.trim block)
  | none =>
      match text.dropWhile (· != openBrace) with
      | [] => none
      | first :: rest => (Text.throughLast? closeBrace rest).map (first :: ·)

/-- The JSON text within a reply. -/
def objectText? (reply : String) : Option String :=
  (object? reply.toList).map String.ofList

/-- The JSON text within a reply, or a complaint that there is none. -/
def objectText (reply : String) : Except String String :=
  match objectText? reply with
  | some text => .ok text
  | none => .error ("no JSON object in: " ++ reply)

/-- Read the JSON text of a reply; a complaint quotes the text. -/
def read {α : Type} (reader : String → Except Json.Complaint α) (reply : String) :
    Except String α := do
  let text ← objectText reply
  match reader text with
  | .ok value => return value
  | .error complaint => throw (complaint.message ++ ": " ++ text)

end Reply

namespace Plan

/-- The shape of a plan. -/
def shape : Json.Shape := .record "struct PlanSpec" [("steps", .list Step.shape, none)]

/-- The steps that a value in full form holds. -/
def stepsOfFull (value : Json) : List Step :=
  (((value.member? "steps").bind Json.items?).getD []).map Step.ofFull

/-- The plan in a reply. -/
def ofReply (reply : String) : Except String Plan := do
  let value ← Reply.read shape.ofText reply
  ofSteps (stepsOfFull value)

end Plan

end Runbook
