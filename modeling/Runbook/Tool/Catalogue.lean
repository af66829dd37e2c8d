import Runbook.Json.Printer
import Runbook.Text.Search
import Runbook.Tool.Metadata

namespace Runbook

/-!
# The catalogue of tools

Tools are registered under names; a later registration replaces an earlier one.
A disabled tool stays registered, but nobody can get it.  The catalogue keeps its
entries in the order of their registration, and every list that it hands out is
ordered by name.
-/

/-- A tool with what it does when it is called. -/
structure Tool (β : Type) where
  name : String
  description : String
  /-- The schema of its input. -/
  parameters : Json
  behaviour : β

namespace Tool

/-- The schema of an input without fields. -/
def noParameters : Json :=
  .record [("type", .str "object"), ("properties", .obj []), ("required", .arr [])]

end Tool

/-- Why an operation on a catalogue fails. -/
inductive CatalogueError where
  | notFound (name : String)
  | invalidName
  | init (tool : String) (reason : String)
  deriving DecidableEq, Repr

namespace CatalogueError

/-- The words for the error. -/
def message : CatalogueError → String
  | notFound name => "tool not found: " ++ name
  | invalidName => "invalid tool name"
  | init tool reason => "tool '" ++ tool ++ "' init failed: " ++ reason

end CatalogueError

/-- A registered tool with its metadata. -/
structure CatalogueEntry (β : Type) where
  key : String
  tool : Tool β
  metadata : ToolMetadata

/-- Registered tools. -/
structure Catalogue (β : Type) where
  entries : List (CatalogueEntry β) := []

namespace Catalogue

variable {β : Type}

/-- The entry of a name. -/
def find? (catalogue : Catalogue β) (name : String) : Option (CatalogueEntry β) :=
  catalogue.entries.find? (·.key == name)

/-- Put an entry in the place of the one with its key, or behind all others. -/
def place (entry : CatalogueEntry β) : List (CatalogueEntry β) → List (CatalogueEntry β)
  | [] => [entry]
  | other :: rest =>
      if other.key = entry.key then entry :: rest else other :: place entry rest

/-- The entry under which a tool would be registered: an empty name stands for the
name of the tool, and an empty description for its description. -/
def entryFor (name : String) (tool : Tool β) (metadata : ToolMetadata) : CatalogueEntry β :=
  let key := if name.isEmpty then tool.name else name
  let description :=
    if metadata.description.isEmpty then tool.description else metadata.description
  ⟨key, tool, { metadata with name := key, description := description }⟩

/-- Register a tool; a name of blanks is refused. -/
def register (catalogue : Catalogue β) (name : String) (tool : Tool β)
    (metadata : ToolMetadata) : Except CatalogueError (Catalogue β) :=
  let entry := entryFor name tool metadata
  if Text.allBlank entry.key then .error .invalidName
  else .ok ⟨place entry catalogue.entries⟩

/-- Take a name out of the catalogue. -/
def unregister (catalogue : Catalogue β) (name : String) :
    Except CatalogueError (Catalogue β) :=
  match catalogue.find? name with
  | none => .error (.notFound name)
  | some _ => .ok ⟨catalogue.entries.filter (·.key != name)⟩

/-- Enable or disable a tool. -/
def setEnabled (catalogue : Catalogue β) (name : String) (enabled : Bool) :
    Except CatalogueError (Catalogue β) :=
  match catalogue.find? name with
  | none => .error (.notFound name)
  | some _ =>
      .ok ⟨catalogue.entries.map fun entry =>
        if entry.key = name then
          { entry with metadata := { entry.metadata with enabled := enabled } }
        else entry⟩

/-- The tool of a name, if it is enabled. -/
def get? (catalogue : Catalogue β) (name : String) : Option (Tool β) :=
  match catalogue.find? name with
  | some entry => if entry.metadata.enabled then some entry.tool else none
  | none => none

/-- Put an item at the place of its name. -/
def insertBy {γ : Type} (nameOf : γ → String) (item : γ) : List γ → List γ
  | [] => [item]
  | other :: rest =>
      if nameOf item ≤ nameOf other then item :: other :: rest
      else other :: insertBy nameOf item rest

/-- Items in the order of their names. -/
def sortBy {γ : Type} (nameOf : γ → String) (items : List γ) : List γ :=
  items.foldr (insertBy nameOf) []

/-- The entries with a property, in the order of their keys. -/
def select (catalogue : Catalogue β) (keep : ToolMetadata → Bool) : List (CatalogueEntry β) :=
  sortBy (·.key) (catalogue.entries.filter fun entry => keep entry.metadata)

/-- The enabled tools that a tag means. -/
def getAll (catalogue : Catalogue β) (tag : String) : List (CatalogueEntry β) :=
  catalogue.select fun metadata => metadata.enabled && metadata.declares tag

/-- The enabled tools of a category. -/
def ofCategory (catalogue : Catalogue β) (category : ToolCategory) : List (CatalogueEntry β) :=
  catalogue.select fun metadata => metadata.enabled && metadata.category == category

/-- The enabled tools whose names start with a text. -/
def withStart (catalogue : Catalogue β) (start : String) : List (CatalogueEntry β) :=
  catalogue.select fun metadata =>
    metadata.enabled && Text.startsWith start.toList metadata.name.toList

/-- What is known about a registered tool. -/
def metadata? (catalogue : Catalogue β) (name : String) : Option ToolMetadata :=
  (catalogue.find? name).map (·.metadata)

/-- What is known about every registered tool, in the order of the names. -/
def listMetadata (catalogue : Catalogue β) : List ToolMetadata :=
  sortBy (·.name) (catalogue.entries.map (·.metadata))

/-- The registered names in order. -/
def names (catalogue : Catalogue β) : List String := catalogue.listMetadata.map (·.name)

/-- The number of registered tools. -/
def size (catalogue : Catalogue β) : Nat := catalogue.entries.length

/-- The number of enabled tools. -/
def enabledCount (catalogue : Catalogue β) : Nat :=
  (catalogue.entries.filter (·.metadata.enabled)).length

/-- The names and descriptions of the enabled tools that a tag means. -/
def descriptions (catalogue : Catalogue β) (tag : String) : List (String × String) :=
  (catalogue.listMetadata.filter fun metadata =>
    metadata.enabled && metadata.declares tag).map fun metadata =>
      (metadata.name, metadata.description)

/-- One tool as a model is told of it. -/
def entrySchema (entry : CatalogueEntry β) : Json :=
  .record
    [ ("name", .str entry.key),
      ("description", .str entry.metadata.description),
      ("parameters", entry.tool.parameters) ]

/-- The enabled tools that a tag means, as a model is told of them. -/
def schemaText (catalogue : Catalogue β) (tag : String) : String :=
  (Json.arr ((catalogue.getAll tag).map entrySchema)).pretty

end Catalogue

end Runbook
