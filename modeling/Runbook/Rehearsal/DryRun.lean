import Runbook.Rehearsal.Studio
import Runbook.Settings.Basic
import Runbook.Toolbox.Standard

namespace Runbook.Rehearsal

/-!
# Dry runs

A dry run pursues an objective without a network and without a clock: the offline
model plans and reviews, and a stand-in takes the place of every standard tool.
-/

namespace Setup

/-- What settings fix for a rehearsal. -/
def ofSettings (settings : Settings) (sleeps : Bool) : Setup :=
  { policy := settings.retry.policy
    sleeps := sleeps
    toolTimeout := settings.tools.timeout
    batch := settings.batch.config }

end Setup

namespace Studio

/-- A studio with a catalogue, before anything has happened in it. -/
def ofSettings (settings : Settings) (catalogue : Catalogue ToolScript) : Studio :=
  { world := { catalogue := catalogue, roster := { config := settings.breaker.config } } }

end Studio

namespace DryRun

/-- The stand-in of a tool, which ends at once with the name of the tool. -/
def standIn (number : Nat) (offer : Toolbox.Offer) : ScriptedTool :=
  { name := offer.tool.name
    description := offer.tool.description
    parameters := offer.tool.parameters
    behaviour := ⟨number, []⟩ }

/-- Register the stand-in of a tool. -/
def register (catalogue : Catalogue ToolScript) (numbered : Toolbox.Offer × Nat) :
    Except CatalogueError (Catalogue ToolScript) :=
  catalogue.register "" (standIn numbered.2 numbered.1) numbered.1.metadata

/-- The stand-ins of the standard tools. -/
def catalogue (settings : ToolSettings) : Except CatalogueError (Catalogue ToolScript) :=
  (Toolbox.offers settings).zipIdx.foldlM register {}

/-- The name of a run of this kind. -/
def runId : String := "dry-run"

/-- The report of a dry run; `none` if the run broke down. -/
def run (settings : Settings) (objective : String) :
    Except CatalogueError (Option Report) := do
  let studio := Studio.ofSettings settings (← catalogue settings.tools)
  let (context, world) := studio.world.newContext
  let crew :=
    Studio.crew (Setup.ofSettings settings true) context settings.run.agentKind none none
  return (crew.run settings.run.maxIterations runId objective
    { studio with world := world }).1

end DryRun

end Runbook.Rehearsal
