import Runbook.Plan.Reply

namespace Runbook

/-!
# Decisions as a model writes them

After each round a model decides how to go on.  A decision is an object whose
`action` says which of three it is; the tag may stand anywhere among the
members, so they are set aside while it is looked for, and what does not fit
after that has no place in the text any more.
-/

/-- How to go on, as a model writes it. -/
inductive Proposal where
  | goOn (steps : List Step)
  | complete (answer : String)
  | abort (reason : String)
  deriving DecidableEq

namespace Proposal

open Json Json.Reader

/-- The actions there are. -/
def actions : List String := ["continue", "complete", "abort"]

/-- The fields that go with an action. -/
def fieldsShape (action : String) : Shape :=
  if action = "continue" then
    .record "struct variant DecisionSpec::Continue" [("steps", .list Step.shape, none)]
  else if action = "complete" then
    .record "struct variant DecisionSpec::Complete" [("answer", .text, some (.str ""))]
  else
    .record "struct variant DecisionSpec::Abort" [("reason", .text, some (.str ""))]

/-- Read the members up to the brace, the action apart. -/
def readMembers (first : Bool) (action : Option String) (others : List (String × Json)) :
    (fuel : Nat) → Reader (Option String × List (String × Json))
  | 0 => failHere .endInObject
  | fuel + 1 => do
      if ← keyAhead first then
        let key ← string
        if key = "action" then
          if action.isSome then
            let ahead ← skipGaps
            if ahead = some Reply.closeBrace then skip
            Shape.located (.error ⟨.duplicateField "action", none⟩)
          else
            colon
            let value ← Shape.read 1 (.variant actions) fuel
            readMembers false value.text? others fuel
        else
          colon
          let value ← value 1 fuel
          readMembers false action ((key, value) :: others) fuel
      else return (action, others.reverse)

/-- Read the items up to the bracket; the first one is the action. -/
def readItems (fuel : Nat) : Reader (Option String × List Json) := do
  if ← itemAhead true then
    let action ← Shape.read 1 (.variant actions) fuel
    let others ← items 1 false [] fuel
    return (action.text?, others)
  else return (none, [])

/-- The complaint that nothing says which action it is. -/
def noAction : Complaint := ⟨.missingField "action", none⟩

/-- Read the action and what was set aside. -/
def readTagged (fuel : Nat) : Reader (String × Json) := do
  match ← skipGaps with
  | none => failHere .endInValue
  | some c =>
      if c = Reply.openBrace then
        skip
        let (action, others) ← readMembers true none [] fuel
        endObject
        match action with
        | some action => return (action, .obj others)
        | none => Shape.located (.error noAction)
      else if c = '[' then
        skip
        let (action, others) ← readItems fuel
        endList
        match action with
        | some action => return (action, .arr others)
        | none => Shape.located (.error noAction)
      else
        let expected := "internally tagged enum DecisionSpec"
        Shape.readLeaf (.record expected []) c fuel >>= fun value => return ("", value)

/-- The decision of an action with its fields in full form. -/
def ofFull (action : String) (fields : Json) : Proposal :=
  let textOf (name : String) : String := ((fields.member? name).bind Json.text?).getD ""
  if action = "continue" then .goOn (Plan.stepsOfFull fields)
  else if action = "complete" then .complete (textOf "answer")
  else .abort (textOf "reason")

/-- The decision that a text writes. -/
def ofText (text : String) : Except Complaint Proposal := do
  let (action, fields) ← Reader.run readTagged text
  let shape := fieldsShape action
  let full ← Shape.check .elementsInSequence shape fields (Shape.checkFuel fields)
  return ofFull action full

/-- The decision in a reply. -/
def ofReply (reply : String) : Except String Proposal := Reply.read ofText reply

end Proposal

end Runbook
