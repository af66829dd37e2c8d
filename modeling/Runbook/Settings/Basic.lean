import Runbook.Batch.Basic
import Runbook.Breaker.Basic
import Runbook.Json.Shape

namespace Runbook

/-!
# Settings

What can be set, section by section, and what holds where nothing is set.  Every
section has a full form as JSON with its fields in order; a section is read by its
shape, which fills in the fields that are left out.
-/

open Json (Shape)

/-- The section of the application itself. -/
structure AppSettings where
  name : Option String := none
  logLevel : String := "info"
  deriving DecidableEq, Repr

namespace AppSettings

/-- The section in full form. -/
def toJson (settings : AppSettings) : Json :=
  .obj [("name", .ofText? settings.name), ("log_level", .str settings.logLevel)]

/-- The shape of the section. -/
def shape : Shape :=
  .withDefaults "struct AppSection" (toJson {})
    [ ("name", .optional .text),
      ("log_level", .text) ]

/-- The section that a value in full form holds. -/
def ofFull (value : Json) : AppSettings :=
  { name := value.textAt? "name", logLevel := value.textAt "log_level" }

end AppSettings

/-- The section of the model. -/
structure ModelSettings where
  provider : String := "deepseek"
  model : Option String := none
  baseUrl : Option String := none
  /-- How many seconds one request may take. -/
  requestTimeout : Nat := 60
  deriving DecidableEq, Repr

namespace ModelSettings

/-- The section in full form. -/
def toJson (settings : ModelSettings) : Json :=
  .obj
    [ ("provider", .str settings.provider),
      ("model", .ofText? settings.model),
      ("base_url", .ofText? settings.baseUrl),
      ("request_timeout_secs", .int settings.requestTimeout) ]

/-- The shape of the section. -/
def shape : Shape :=
  .withDefaults "struct LlmSection" (toJson {})
    [ ("provider", .text),
      ("model", .optional .text),
      ("base_url", .optional .text),
      ("request_timeout_secs", .u64) ]

/-- The section that a value in full form holds. -/
def ofFull (value : Json) : ModelSettings :=
  { provider := value.textAt "provider"
    model := value.textAt? "model"
    baseUrl := value.textAt? "base_url"
    requestTimeout := value.naturalAt "request_timeout_secs" }

end ModelSettings

/-- The section of the tools. -/
structure ToolSettings where
  /-- How many seconds one attempt of a tool may take. -/
  toolTimeout : Nat := 30
  docsDir : String := "docs"
  lokiUrl : String := "http://127.0.0.1:3100"
  prometheusUrl : String := "http://127.0.0.1:9090"
  databasePath : Option String := none
  allowedTables : List String :=
    ["users", "members", "api_request_logs", "api_error_logs", "api_trace_spans",
      "permission_audit_logs"]
  deriving DecidableEq, Repr

namespace ToolSettings

/-- The section in full form. -/
def toJson (settings : ToolSettings) : Json :=
  .obj
    [ ("tool_timeout_secs", .int settings.toolTimeout),
      ("docs_dir", .str settings.docsDir),
      ("loki_url", .str settings.lokiUrl),
      ("prometheus_url", .str settings.prometheusUrl),
      ("database_path", .ofText? settings.databasePath),
      ("allowed_tables", .arr (settings.allowedTables.map .str)) ]

/-- The shape of the section. -/
def shape : Shape :=
  .withDefaults "struct ToolsSection" (toJson {})
    [ ("tool_timeout_secs", .u64),
      ("docs_dir", .path),
      ("loki_url", .text),
      ("prometheus_url", .text),
      ("database_path", .optional .path),
      ("allowed_tables", .list .text) ]

/-- The section that a value in full form holds. -/
def ofFull (value : Json) : ToolSettings :=
  { toolTimeout := value.naturalAt "tool_timeout_secs"
    docsDir := value.textAt "docs_dir"
    lokiUrl := value.textAt "loki_url"
    prometheusUrl := value.textAt "prometheus_url"
    databasePath := value.textAt? "database_path"
    allowedTables :=
      (((value.member? "allowed_tables").bind Json.items?).getD []).filterMap Json.text? }

/-- How long one attempt of a tool may take; at least a second. -/
def timeout (settings : ToolSettings) : Duration := .ofSeconds (max settings.toolTimeout 1)

end ToolSettings

/-- The section of batches. -/
structure BatchSettings where
  maxConcurrency : Nat := 5
  /-- How many seconds a batch may take; zero means any number. -/
  timeout : Nat := 300
  continueOnError : Bool := true
  /-- How many milliseconds a pause between two chunks takes. -/
  pause : Nat := 100
  deriving DecidableEq, Repr

namespace BatchSettings

/-- The section in full form. -/
def toJson (settings : BatchSettings) : Json :=
  .obj
    [ ("max_concurrency", .int settings.maxConcurrency),
      ("timeout_secs", .int settings.timeout),
      ("continue_on_error", .bool settings.continueOnError),
      ("batch_pause_ms", .int settings.pause) ]

/-- The shape of the section. -/
def shape : Shape :=
  .withDefaults "struct ParallelSection" (toJson {})
    [ ("max_concurrency", .size),
      ("timeout_secs", .u64),
      ("continue_on_error", .truth),
      ("batch_pause_ms", .u64) ]

/-- The section that a value in full form holds. -/
def ofFull (value : Json) : BatchSettings :=
  { maxConcurrency := value.naturalAt "max_concurrency"
    timeout := value.naturalAt "timeout_secs"
    continueOnError := value.truthAt "continue_on_error"
    pause := value.naturalAt "batch_pause_ms" }

/-- How batches are carried out. -/
def config (settings : BatchSettings) : BatchConfig :=
  { maxConcurrency := max settings.maxConcurrency 1
    timeout := if settings.timeout = 0 then none else some (.ofSeconds settings.timeout)
    continueOnError := settings.continueOnError
    pause := .ofMillis settings.pause }

end BatchSettings

/-- The section of circuit breakers. -/
structure BreakerSettings where
  maxFailures : Nat := 5
  /-- How many seconds a circuit stays open. -/
  resetTimeout : Nat := 60
  halfOpenAttempts : Nat := 3
  deriving DecidableEq, Repr

namespace BreakerSettings

/-- The section in full form. -/
def toJson (settings : BreakerSettings) : Json :=
  .obj
    [ ("max_failures", .int settings.maxFailures),
      ("reset_timeout_secs", .int settings.resetTimeout),
      ("half_open_attempts", .int settings.halfOpenAttempts) ]

/-- The shape of the section. -/
def shape : Shape :=
  .withDefaults "struct CircuitBreakerSection" (toJson {})
    [ ("max_failures", .u32),
      ("reset_timeout_secs", .u64),
      ("half_open_attempts", .u32) ]

/-- The section that a value in full form holds. -/
def ofFull (value : Json) : BreakerSettings :=
  { maxFailures := value.naturalAt "max_failures"
    resetTimeout := value.naturalAt "reset_timeout_secs"
    halfOpenAttempts := value.naturalAt "half_open_attempts" }

/-- When breakers open and how they close. -/
def config (settings : BreakerSettings) : BreakerConfig :=
  { maxFailures := max settings.maxFailures 1
    resetTimeout := .ofSeconds settings.resetTimeout
    halfOpenAttempts := max settings.halfOpenAttempts 1 }

end BreakerSettings

/-- The section of retries. -/
structure RetrySettings where
  maxAttempts : Nat := 3
  /-- The first wait in milliseconds. -/
  baseDelay : Nat := 100
  /-- The longest wait in milliseconds. -/
  maxDelay : Nat := 5000
  multiplier : Double := .ofFloat 2.0
  deriving DecidableEq, Repr

namespace RetrySettings

/-- The section in full form. -/
def toJson (settings : RetrySettings) : Json :=
  .obj
    [ ("max_attempts", .int settings.maxAttempts),
      ("base_delay_ms", .int settings.baseDelay),
      ("max_delay_ms", .int settings.maxDelay),
      ("multiplier", .double settings.multiplier) ]

/-- The shape of the section. -/
def shape : Shape :=
  .withDefaults "struct RetrySection" (toJson {})
    [ ("max_attempts", .u32),
      ("base_delay_ms", .u64),
      ("max_delay_ms", .u64),
      ("multiplier", .real) ]

/-- The section that a value in full form holds. -/
def ofFull (value : Json) : RetrySettings :=
  { maxAttempts := value.naturalAt "max_attempts"
    baseDelay := value.naturalAt "base_delay_ms"
    maxDelay := value.naturalAt "max_delay_ms"
    multiplier := value.doubleAt "multiplier" }

/-- How operations are retried. -/
def policy (settings : RetrySettings) : RetryPolicy :=
  { maxAttempts := max settings.maxAttempts 1
    baseDelay := .ofMillis settings.baseDelay
    maxDelay := .ofMillis settings.maxDelay
    multiplier := settings.multiplier }

end RetrySettings

/-- The section of runs. -/
structure RunSettings where
  maxIterations : Nat := 100
  /-- The tag of the tools that a model is shown. -/
  agentKind : String := "plan_execute"
  deriving DecidableEq, Repr

namespace RunSettings

/-- The section in full form. -/
def toJson (settings : RunSettings) : Json :=
  .obj
    [ ("max_iterations", .int settings.maxIterations),
      ("agent_type", .str settings.agentKind) ]

/-- The shape of the section. -/
def shape : Shape :=
  .withDefaults "struct OrchestratorSection" (toJson {})
    [ ("max_iterations", .size),
      ("agent_type", .text) ]

/-- The section that a value in full form holds. -/
def ofFull (value : Json) : RunSettings :=
  { maxIterations := value.naturalAt "max_iterations"
    agentKind := value.textAt "agent_type" }

end RunSettings

/-- Every setting. -/
structure Settings where
  app : AppSettings := {}
  model : ModelSettings := {}
  tools : ToolSettings := {}
  batch : BatchSettings := {}
  breaker : BreakerSettings := {}
  retry : RetrySettings := {}
  run : RunSettings := {}
  deriving DecidableEq, Repr

namespace Settings

/-- The section that holds those of breakers and retries, in full form. -/
def resilienceJson (breaker : BreakerSettings) (retry : RetrySettings) : Json :=
  .obj [("circuit_breaker", breaker.toJson), ("retry", retry.toJson)]

/-- The settings in full form. -/
def toJson (settings : Settings) : Json :=
  .obj
    [ ("app", settings.app.toJson),
      ("llm", settings.model.toJson),
      ("tools", settings.tools.toJson),
      ("parallel", settings.batch.toJson),
      ("resilience", resilienceJson settings.breaker settings.retry),
      ("orchestrator", settings.run.toJson) ]

/-- The shape of the section that holds those of breakers and retries. -/
def resilienceShape : Shape :=
  .withDefaults "struct ResilienceSection" (resilienceJson {} {})
    [ ("circuit_breaker", BreakerSettings.shape),
      ("retry", RetrySettings.shape) ]

/-- The shape of all settings. -/
def shape : Shape :=
  .withDefaults "struct AppConfig" (toJson {})
    [ ("app", AppSettings.shape),
      ("llm", ModelSettings.shape),
      ("tools", ToolSettings.shape),
      ("parallel", BatchSettings.shape),
      ("resilience", resilienceShape),
      ("orchestrator", RunSettings.shape) ]

/-- The settings that a value in full form holds. -/
def ofFull (value : Json) : Settings :=
  let resilience := value.memberAt "resilience"
  { app := .ofFull (value.memberAt "app")
    model := .ofFull (value.memberAt "llm")
    tools := .ofFull (value.memberAt "tools")
    batch := .ofFull (value.memberAt "parallel")
    breaker := .ofFull (resilience.memberAt "circuit_breaker")
    retry := .ofFull (resilience.memberAt "retry")
    run := .ofFull (value.memberAt "orchestrator") }

/-- The settings that a value describes. -/
def ofJson (value : Json) : Except Json.Complaint Settings :=
  (shape.ofValue value).map ofFull

end Settings

end Runbook
