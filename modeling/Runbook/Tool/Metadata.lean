import Runbook.Json.Value

namespace Runbook

/-!
# What is known about a tool

A tool has a category and serves some kinds of agent.  A tag names a category or
a kind of agent, and says which tools are meant.
-/

/-- What a tool is about. -/
inductive ToolCategory where
  | observability
  | database
  | knowledge
  | utility
  | mcp
  | custom
  deriving DecidableEq, Repr

namespace ToolCategory

/-- The name of a category. -/
def name : ToolCategory → String
  | observability => "observability"
  | database => "database"
  | knowledge => "knowledge"
  | utility => "utility"
  | mcp => "mcp"
  | custom => "custom"

/-- Every category. -/
def all : List ToolCategory := [observability, database, knowledge, utility, mcp, custom]

/-- The category of a name. -/
def ofName? (name : String) : Option ToolCategory := all.find? (·.name == name)

end ToolCategory

/-- A kind of agent; `all` stands for every kind. -/
inductive AgentKind where
  | chat
  | planExecute
  | knowledge
  | all
  deriving DecidableEq, Repr

namespace AgentKind

/-- The name of a kind of agent. -/
def name : AgentKind → String
  | chat => "chat"
  | planExecute => "plan_execute"
  | knowledge => "knowledge"
  | all => "all"

/-- The kind of agent of a name. -/
def ofName? (name : String) : Option AgentKind :=
  [chat, planExecute, knowledge, all].find? (·.name == name)

end AgentKind

/-- What is known about a tool. -/
structure ToolMetadata where
  name : String := ""
  description : String := ""
  category : ToolCategory
  enabled : Bool := true
  agentKinds : List AgentKind := [.all]
  deriving DecidableEq, Repr

namespace ToolMetadata

/-- Whether a tag means the tool.  The empty tag and `all` mean every tool; a kind
of agent means the tools that serve it, and those that serve all; any other tag
means the tools of the category it names. -/
def declares (metadata : ToolMetadata) (tag : String) : Bool :=
  if tag.isEmpty || tag == AgentKind.all.name then true
  else if metadata.category.name == tag then true
  else
    match AgentKind.ofName? tag with
    | some wanted => metadata.agentKinds.any fun kind => kind == .all || kind == wanted
    | none => false

/-- The metadata as JSON. -/
def toJson (metadata : ToolMetadata) : Json :=
  .record
    [ ("name", .str metadata.name),
      ("description", .str metadata.description),
      ("category", .str metadata.category.name),
      ("enabled", .bool metadata.enabled),
      ("agent_types", .arr (metadata.agentKinds.map fun kind => .str kind.name)) ]

end ToolMetadata

end Runbook
