import Runbook.Settings.Basic
import Runbook.Tool.Catalogue
import Runbook.Toolbox.Alerts
import Runbook.Toolbox.Documents
import Runbook.Toolbox.Logs
import Runbook.Toolbox.Query
import Runbook.Toolbox.Time

namespace Runbook.Toolbox

/-!
# The standard tools

Alerts, logs, documents and the time are always there; the database is there if the
settings say where it is.  None of these tools changes anything.
-/

/-- What the standard tools find around them. -/
structure Site where
  files : FileTree := {}
  peer : Http.Peer := .absent
  present : Time.Moment
  database : Database.Store := .missing

/-- What a standard tool does with an input. -/
abbrev Behaviour := Site → Json → ToolResult

/-- A tool with what is known about it. -/
structure Offer where
  tool : Tool Behaviour
  metadata : ToolMetadata

/-- The tool that lists alerts. -/
def alertsOffer (settings : ToolSettings) : Offer where
  tool :=
    { name := "query_prometheus_alerts"
      description :=
        "List active Prometheus alerts (name, state, severity, activeAt, summary). " ++
          "Use this tool first when diagnosing an incident."
      parameters := Alerts.form.schema
      behaviour := fun site => Alerts.run site.peer settings.prometheusUrl }
  metadata := { category := .observability, agentKinds := [.chat, .planExecute] }

/-- The tool that searches logs. -/
def logsOffer (settings : ToolSettings) : Offer where
  tool :=
    { name := "query_loki_logs"
      description :=
        "Query logs from Loki using LogQL and a time range. " ++
          "Use this tool to fetch error logs, tracebacks, or specific service logs."
      parameters := Logs.form.schema
      behaviour := fun site => Logs.run site.peer settings.lokiUrl site.present.nanos }
  metadata := { category := .observability, agentKinds := [.chat, .planExecute] }

/-- The tool that searches documents. -/
def documentsOffer (settings : ToolSettings) : Offer where
  tool :=
    { name := "query_internal_docs"
      description :=
        "Search internal documentation/runbooks for relevant information. " ++
          "Returns top matches with snippets. " ++
          "Use this tool before proposing operational actions."
      parameters := Documents.form.schema
      behaviour := fun site => Documents.run site.files settings.docsDir }
  metadata := { category := .knowledge, agentKinds := [.chat, .planExecute, .knowledge] }

/-- The tool that tells the time. -/
def timeOffer : Offer where
  tool :=
    { name := "get_current_time"
      description :=
        "Get the current time as unix seconds, milliseconds, nanoseconds and RFC 3339. " ++
          "Use it before building time ranges for log queries."
      parameters := Time.form.schema
      behaviour := fun site => Time.run site.present }
  metadata := { category := .utility }

/-- The tool that asks the database at a path. -/
def databaseOffer (settings : ToolSettings) (path : String) : Offer where
  tool :=
    { name := "db_readonly_query"
      description :=
        "Run a readonly SQL query (SELECT/WITH) against the operations database. " ++
          "Use this tool to inspect users, members, request/error logs and trace spans. " ++
          "Writes are forbidden."
      parameters := Query.form.schema
      behaviour := fun site =>
        Query.run (.ofTables settings.allowedTables) path site.database }
  metadata := { category := .database, agentKinds := [.chat, .planExecute] }

/-- The standard tools under some settings. -/
def offers (settings : ToolSettings) : List Offer :=
  [alertsOffer settings, logsOffer settings, documentsOffer settings, timeOffer] ++
    (settings.databasePath.map (databaseOffer settings)).toList

/-- Register a tool under its own name. -/
def register (catalogue : Catalogue Behaviour) (offer : Offer) :
    Except CatalogueError (Catalogue Behaviour) :=
  catalogue.register "" offer.tool offer.metadata

/-- The catalogue of the standard tools. -/
def standard (settings : ToolSettings) : Except CatalogueError (Catalogue Behaviour) :=
  (offers settings).foldlM register {}

end Runbook.Toolbox
