import Runbook.Json.Printer
import Runbook.Json.Shape

namespace Runbook.Toolbox

/-!
# Inputs of tools

A tool says which fields its input has.  From that follow the schema that a model is
shown and the check that an input has to pass.
-/

/-- What a field holds. -/
inductive FieldKind where
  | text
  | signed
  | unsigned
  deriving DecidableEq, Repr

/-- A field of an input. -/
structure InputField where
  name : String
  about : String
  kind : FieldKind := .text
  optional : Bool := false
  deriving DecidableEq, Repr

/-- The fields of an input, under a title. -/
structure InputForm where
  title : String
  fields : List InputField
  deriving DecidableEq, Repr

namespace InputField

/-- The name of the type of a field. -/
def typeName (field : InputField) : String :=
  match field.kind with
  | .text => "string"
  | .signed => "integer"
  | .unsigned => "integer"

/-- The members of a schema that say how large a number may be. -/
def bounds (field : InputField) : List (String × Json) :=
  match field.kind with
  | .text => []
  | .signed => [("format", .str "int64")]
  | .unsigned => [("format", .str "uint32"), ("minimum", .double (.ofFloat 0.0))]

/-- The schema of a field. -/
def schema (field : InputField) : Json :=
  let typed : List (String × Json) :=
    if field.optional then
      [("type", .arr [.str field.typeName, .str "null"]), ("default", .null)]
    else [("type", .str field.typeName)]
  .record ([("description", .str field.about)] ++ typed ++ field.bounds)

/-- The shape of a field without regard to whether it is optional. -/
def innerShape (field : InputField) : Json.Shape :=
  match field.kind with
  | .text => .text
  | .signed => .signed
  | .unsigned => .u32

/-- The shape of a field, and the value that it has when it is left out. -/
def shape (field : InputField) : String × Json.Shape × Option Json :=
  if field.optional then (field.name, .optional field.innerShape, some .null)
  else (field.name, field.innerShape, none)

end InputField

namespace InputForm

/-- The schema of an input. -/
def schema (form : InputForm) : Json :=
  let required := (form.fields.filter fun field => !field.optional).map (Json.str ·.name)
  .record <|
    [ ("$schema", .str "http://json-schema.org/draft-07/schema#"),
      ("title", .str form.title),
      ("type", .str "object"),
      ("properties", .record (form.fields.map fun field => (field.name, field.schema))) ] ++
    if required.isEmpty then [] else [("required", .arr required)]

/-- The shape of an input. -/
def shape (form : InputForm) : Json.Shape :=
  .record ("struct " ++ form.title) (form.fields.map InputField.shape)

/-- Check an input; `null` stands for one without fields. -/
def parse (form : InputForm) (input : Json) : Except String Json :=
  let input := if input.isNull then .obj [] else input
  match form.shape.ofValue input with
  | .ok full => .ok full
  | .error complaint => .error ("invalid input: " ++ complaint.message)

end InputForm

/-- What a tool returns: a text, or an error that counts as a failure of the tool. -/
abbrev ToolResult := Except String String

/-- The text of a failure that a model is to read. -/
def failureText (reason : String) : String :=
  (Json.record [("success", .bool false), ("error", .str reason)]).compact

end Runbook.Toolbox
