import Runbook.Text.Lowercase
import Runbook.Text.Search
import Runbook.Toolbox.Service

namespace Runbook.Toolbox.Alerts

/-!
# The tool that lists alerts

It asks the monitoring service for its alerts and returns what matters of each.  The
input may keep the alerts of one state, or those whose names have a part.
-/

/-- The input: a state and a part of a name. -/
def form : InputForm :=
  ⟨"AlertsInput",
    [ ⟨"state", "按状态过滤：firing / pending，缺省返回全部", .text, true⟩,
      ⟨"name_contains", "告警名子串过滤（不区分大小写）", .text, true⟩ ]⟩

/-- What matters of an alert. -/
structure Alert where
  name : String
  state : String
  severity : String
  /-- Since when the alert has been active. -/
  since : String
  summary : String
  labels : Json
  deriving DecidableEq

namespace Alert

/-- An alert as JSON. -/
def toJson (alert : Alert) : Json :=
  .record
    [ ("name", .str alert.name), ("state", .str alert.state),
      ("severity", .str alert.severity), ("active_at", .str alert.since),
      ("summary", .str alert.summary), ("labels", alert.labels) ]

/-- The text at the end of a path, if there is one. -/
def textAt (path : List String) (value : Json) : String :=
  ((value.at? path).bind Json.text?).getD ""

/-- What matters of an alert in a response; the description stands in for a summary that
is missing. -/
def ofJson (value : Json) : Alert :=
  let summary := textAt ["annotations", "summary"] value
  { name := textAt ["labels", "alertname"] value
    state := textAt ["state"] value
    severity := textAt ["labels", "severity"] value
    since := textAt ["activeAt"] value
    summary :=
      if summary.isEmpty then textAt ["annotations", "description"] value else summary
    labels := value.memberAt "labels" }

/-- Whether an alert is in a state; the case of ASCII letters does not count. -/
def isIn (state : String) (alert : Alert) : Bool :=
  alert.state.map Char.toLower == state.map Char.toLower

/-- Whether the name of an alert has a part, in any case. -/
def hasPart (part : String) (alert : Alert) : Bool :=
  Text.occursIn (Text.lower part.toList) (Text.lower alert.name.toList)

/-- The alerts of a response that an input asks for. -/
def ofResponse (response : Json) (state part : Option String) : List Alert :=
  let alerts := ((response.at? ["data", "alerts"]).bind Json.items?).getD []
  (alerts.map ofJson).filter fun alert =>
    state.all (alert.isIn ·) && part.all (alert.hasPart ·)

end Alert

/-- The service that watches. -/
def service (address : String) : Service := ⟨"prometheus", address⟩

/-- The path of the list of alerts. -/
def path : String := "/api/v1/alerts"

/-- Alerts for a model to read. -/
def found (alerts : List Alert) : Json :=
  .record
    [ ("success", .bool true), ("count", .int alerts.length),
      ("alerts", .arr (alerts.map Alert.toJson)) ]

/-- List the alerts. -/
def run (peer : Http.Peer) (address : String) (input : Json) : ToolResult := do
  let fields ← form.parse input
  let reply ← (service address).ask peer path []
  if !reply.isSuccess then
    return failureText ("prometheus status=" ++ toString reply.status)
  match readJson reply.text with
  | .error reason => return failureText reason
  | .ok response =>
      let state := fields.textAt? "state"
      let part := fields.textAt? "name_contains"
      return (found (Alert.ofResponse response state part)).pretty

end Runbook.Toolbox.Alerts
