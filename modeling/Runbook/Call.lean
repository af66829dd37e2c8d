import Runbook.Ending
import Runbook.Json.Printer

namespace Runbook

/-!
# Calls

One call of a tool.  Its id is the key by which other calls depend on it.  A
call is settled once, with the text that the tool returned or with a fault, and
stays as it is from then on.
-/

/-- One call of a tool. -/
structure Call where
  id : String
  name : String
  input : Json
  /-- What became of the call, once it is settled. -/
  outcome : Option (Except Fault String) := none

deriving instance DecidableEq for Call

namespace Call

/-- An open call of a tool, with the name of the tool as id. -/
def ofTool (name : String) (input : Json) : Call := ⟨name, name, input, none⟩

/-- The call under another id; an empty id changes nothing. -/
def withId (call : Call) (id : String) : Call :=
  if id.isEmpty then call else { call with id := id }

/-- Whether the call is settled. -/
def isDone (call : Call) : Bool := call.outcome.isSome

/-- The text that the tool returned. -/
def result? (call : Call) : Option String :=
  match call.outcome with
  | some (.ok text) => some text
  | _ => none

/-- The fault that the call met. -/
def fault? (call : Call) : Option Fault :=
  match call.outcome with
  | some (.error fault) => some fault
  | _ => none

/-- Whether the call is settled with a text. -/
def isSuccess (call : Call) : Bool := call.result?.isSome

/-- Settle an open call; a settled one stays as it is. -/
def settle (call : Call) (outcome : Except Fault String) : Call :=
  match call.outcome with
  | some _ => call
  | none => { call with outcome := some outcome }

end Call

end Runbook
