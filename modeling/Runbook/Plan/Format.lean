import Runbook.Json.Printer

namespace Runbook.Format

/-!
# The written format of plans and decisions

A model is told in which format to answer by a JSON schema.  The members of a
schema stand in a fixed order that is not that of their names, so these values are
built as they are written.
-/

/-- The member that names a type. -/
def typed (name : String) : String × Json := ("type", .str name)

/-- The member that lists what must be there. -/
def required (names : List String) : String × Json :=
  ("required", .arr (names.map .str))

/-- The member that describes. -/
def described (text : String) : String × Json := ("description", .str text)

/-- The member that gives the value of what is left out. -/
def default (value : Json) : String × Json := ("default", value)

/-- The members for the properties of an object. -/
def properties (members : List (String × Json)) : String × Json :=
  ("properties", .obj members)

/-- The schema of an array of steps. -/
def stepsSchema : Json :=
  .obj [typed "array", ("items", .obj [("$ref", .str "#/definitions/PlanStepSpec")])]

/-- The schema of one step. -/
def stepSchema : Json :=
  .obj
    [ described "模型输出的单个步骤",
      typed "object",
      required ["tool"],
      properties
        [ ("depends_on",
            .obj
              [ described "必须先完成的步骤 id",
                default (.arr []),
                typed "array",
                ("items", .obj [typed "string"]) ]),
          ("id",
            .obj
              [ described "步骤 id，供 depends_on 引用；省略时取工具名",
                default .null,
                ("type", .arr [.str "string", .str "null"]) ]),
          ("input",
            .obj [described "工具输入，须符合该工具的 JSON Schema", default .null]),
          ("tool", .obj [described "已注册的工具名", typed "string"]) ] ]

/-- The member that says which rules a schema follows. -/
def draft : String × Json := ("$schema", .str "http://json-schema.org/draft-07/schema#")

/-- The member that gives a schema its title. -/
def title (name : String) : String × Json := ("title", .str name)

/-- The member that defines a step. -/
def definitions : String × Json := ("definitions", .obj [("PlanStepSpec", stepSchema)])

/-- The schema of a plan. -/
def planSchema : Json :=
  .obj
    [ draft,
      title "PlanSpec",
      typed "object",
      required ["steps"],
      properties [("steps", stepsSchema)],
      definitions ]

/-- The schema of an action. -/
def actionSchema (name : String) : Json :=
  .obj [typed "string", ("enum", .arr [.str name])]

/-- The schema of a text that may be left out. -/
def optionalText : Json := .obj [default (.str ""), typed "string"]

/-- The schema of a decision. -/
def decisionSchema : Json :=
  .obj
    [ draft,
      title "DecisionSpec",
      described "模型输出的决策",
      ("oneOf",
        .arr
          [ .obj
              [ typed "object",
                required ["action", "steps"],
                properties [("action", actionSchema "continue"), ("steps", stepsSchema)] ],
            .obj
              [ described "answer 为空时由总结步骤流式生成",
                typed "object",
                required ["action"],
                properties [("action", actionSchema "complete"), ("answer", optionalText)] ],
            .obj
              [ typed "object",
                required ["action"],
                properties [("action", actionSchema "abort"), ("reason", optionalText)] ] ]),
      definitions ]

/-- The schema of a plan in writing. -/
def planText : String := planSchema.pretty

/-- The schema of a decision in writing. -/
def decisionText : String := decisionSchema.pretty

end Runbook.Format
