import Runbook.Json.Shape

namespace Runbook

/-!
# Conversations

What is sent to a model: a list of messages, each with the role of its speaker.
-/

/-- Who speaks. -/
inductive Role where
  | system
  | user
  | assistant
  deriving DecidableEq, Repr

namespace Role

/-- The name of a role. -/
def name : Role → String
  | system => "system"
  | user => "user"
  | assistant => "assistant"

/-- Every role. -/
def all : List Role := [system, user, assistant]

/-- The role of a name. -/
def ofName? (name : String) : Option Role := all.find? (·.name == name)

end Role

/-- What one speaker says. -/
structure Message where
  role : Role
  content : String
  deriving DecidableEq, Repr

namespace Message

/-- A message as JSON. -/
def toJson (message : Message) : Json :=
  .record [("role", .str message.role.name), ("content", .str message.content)]

/-- The shape of a message. -/
def shape : Json.Shape :=
  .record "struct Message"
    [("role", .choice (Role.all.map Role.name), none), ("content", .text, none)]

/-- The message that a value in full form holds. -/
def ofFull (value : Json) : Message :=
  { role := (((value.member? "role").bind Json.text?).bind Role.ofName?).getD .system
    content := ((value.member? "content").bind Json.text?).getD "" }

end Message

/-- Messages in the order in which they are said. -/
abbrev Conversation := List Message

namespace Conversation

/-- The conversation that a value holds. -/
def ofJson (value : Json) : Except Json.Complaint Conversation := do
  let full ← (Json.Shape.list Message.shape).ofValue value
  return (full.items?.getD []).map Message.ofFull

/-- What the user said last. -/
def lastUser? (conversation : Conversation) : Option String :=
  (conversation.reverse.find? (·.role == .user)).map (·.content)

end Conversation

end Runbook
