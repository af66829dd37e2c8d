import Runbook.Rehearsal.DryRun
import Runbook.Settings.Layers

/-!
# The command line

The arguments are the objective of a dry run.  Its settings come from files and from
the environment.  What is printed is the answer, then the trace; a run that fails says
why on the error channel.
-/

namespace Runbook.CommandLine

/-- The objective when there are no arguments. -/
def defaultObjective : String :=
  "分析当前 Prometheus 活跃告警，结合最近一小时的 Loki 错误日志与内部运维文档，给出可能原因与处置建议"

/-- The objective that arguments name. -/
def objectiveOf (arguments : List String) : String :=
  if arguments.isEmpty then defaultObjective else " ".intercalate arguments

/-- A name and a value with an equals sign between them. -/
def entryOf (text : List Char) : Option (String × String) :=
  match text.span (· != '=') with
  | (name, _ :: content) => some (String.ofList name, String.ofList content)
  | (_, []) => none

/-- The environment in a block of entries, each of which ends with a zero. -/
def environmentOf (block : Text.Bytes) : Environment :=
  ((String.ofList (Text.decodeLossy block)).splitOn "\x00").filterMap fun entry =>
    entryOf entry.toList

/-- The name of the file of settings that the environment asks for. -/
def askedFile? (environment : Environment) : Option String :=
  (environment.find? (·.1 == "OPSAGENT_CONFIG")).map (·.2)

/-- The files that a path may stand for. -/
def filesOf (path : String) : List String :=
  path :: (Settings.Format.all.flatMap Settings.Format.endings).map fun ending =>
    path ++ "." ++ ending

/-- The files in which settings are looked for. -/
def settingsFiles (asked : Option String) : List String :=
  (Settings.defaultPaths.map FilePath.toText ++ asked.toList).flatMap filesOf

/-- The environment of the process, where the system shows it as a file. -/
def readEnvironment : IO Environment := do
  try
    return environmentOf (← IO.FS.readBinFile "/proc/self/environ").toList
  catch _ => return []

/-- Those of some files that are there. -/
def readFiles (paths : List String) : IO FileTree :=
  paths.foldlM (fun tree (path : String) => do
    try
      return tree.add path (← IO.FS.readBinFile path).toList
    catch _ => return tree) {}

/-- Say why nothing came of the run. -/
def refuse (message : String) : IO UInt32 := do
  IO.eprintln ("Error: " ++ message)
  return 1

/-- Print a report. -/
def tell (report : Report) : IO UInt32 := do
  let trace := report.journal.trace
  match report.outcome with
  | .done answer =>
      IO.println answer
      IO.println ""
      IO.println trace.toJson.pretty
      return 0
  | .failed fault =>
      IO.println trace.toJson.pretty
      refuse ("run " ++ trace.runId ++ " failed: " ++ Outcome.reason fault ++
        " (" ++ fault.message ++ ")")

/-- Pursue the objective that arguments name. -/
def run (arguments : List String) : IO UInt32 := do
  let environment ← readEnvironment
  let asked := askedFile? environment
  match Settings.load {} (← readFiles (settingsFiles asked)) asked environment with
  | .error flaw => refuse ("Failed to load config\n\nCaused by:\n    " ++ flaw.message)
  | .ok settings =>
      match Rehearsal.DryRun.run settings (objectiveOf arguments) with
      | .error flaw => refuse ("Failed to build agent\n\nCaused by:\n    " ++ flaw.message)
      | .ok none => refuse "the run broke down"
      | .ok (some report) => tell report

end Runbook.CommandLine

/-- Pursue the objective that the arguments name. -/
def main (arguments : List String) : IO UInt32 := Runbook.CommandLine.run arguments
