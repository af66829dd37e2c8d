import Runbook.Logs.Line
import Runbook.Logs.Window
import Runbook.Text.Blank
import Runbook.Toolbox.Service

namespace Runbook.Toolbox.Logs

/-!
# The tool that searches logs

It puts a query about a span of time to the log service, and returns the lines that
match in the order of their times.
-/

open Runbook.Logs (Window Line)

/-- How many lines are asked for when the input does not say. -/
def usualLimit : Nat := 200

/-- How many lines are asked for at most. -/
def greatestLimit : Nat := 2000

/-- The input: a query, a span of time and a number of lines. -/
def form : InputForm :=
  ⟨"LokiQueryInput",
    [ ⟨"query", "LogQL，如 \x7bjob=\"resume-backend\", stream=\"error\"\x7d |= \"ERROR\"",
        .text, false⟩,
      ⟨"start", "起始时间（unix，秒/毫秒/微秒/纳秒均可），缺省为一小时前", .signed, true⟩,
      ⟨"end", "结束时间（unix），缺省为当前时间", .signed, true⟩,
      ⟨"limit", "最大行数，默认 200，最大 2000", .unsigned, true⟩ ]⟩

/-- The service that keeps the logs. -/
def service (address : String) : Service := ⟨"loki", address⟩

/-- The path of a search. -/
def path : String := "/loki/api/v1/query_range"

/-- The integer of an input under a key. -/
def intAt? (fields : Json) (key : String) : Option Int := (fields.member? key).bind Json.int?

/-- How many lines an input asks for. -/
def limitOf (fields : Json) : Nat :=
  match fields.naturalAt "limit" with
  | 0 => usualLimit
  | limit => min limit greatestLimit

/-- The span of time that an input asks for. -/
def windowOf (fields : Json) (present : Int) : Window :=
  .ofBounds (intAt? fields "start") (intAt? fields "end") present

/-- The fields of a request. -/
def requestFields (query : String) (window : Window) (limit : Nat) :
    List (String × String) :=
  [ ("query", query), ("start", toString window.start), ("end", toString window.finish),
    ("limit", toString limit) ]

/-- A reply that is no success, for a model to read. -/
def refusal (reply : Reply) : Json :=
  .record
    [ ("success", .bool false), ("status", .int reply.status), ("error", .str reply.text) ]

/-- Lines that were found, for a model to read. -/
def found (query : String) (lines : List Line) : Json :=
  .record
    [ ("success", .bool true), ("query", .str query), ("count", .int lines.length),
      ("lines", .arr (lines.map Line.toJson)) ]

/-- Search the logs; the present is in nanoseconds since 1970. -/
def run (peer : Http.Peer) (address : String) (present : Int) (input : Json) :
    ToolResult := do
  let fields ← form.parse input
  let query := Text.trimmed (fields.textAt "query")
  if query.isEmpty then return failureText "query is empty"
  let asked := requestFields query (windowOf fields present) (limitOf fields)
  let reply ← (service address).ask peer path asked
  if !reply.isSuccess then return (refusal reply).compact
  match readJson reply.text with
  | .error reason => return failureText reason
  | .ok response => return (found query (Line.ofResponse response)).pretty

end Runbook.Toolbox.Logs
