import Runbook.Run.Iteration

namespace Runbook

/-!
# Reports

A run iterates until somebody ends it, its context ends, or it has no iteration
left.  Its report says what came of it, and holds its journal.
-/

/-- What came of a run. -/
inductive Outcome where
  | done (answer : String)
  | failed (fault : Fault)
  deriving DecidableEq, Repr

namespace Outcome

/-- Why a run failed, in a few words. -/
def reason : Fault → String
  | .iterationLimit _ => "iteration limit"
  | fault => fault.message

/-- The outcome as JSON. -/
def toJson : Outcome → Json
  | done answer => .record [("status", .str "done"), ("answer", .str answer)]
  | failed fault =>
      .record
        [ ("status", .str "failed"), ("reason", .str (reason fault)),
          ("error", .str fault.message) ]

/-- The answer, of a run that is done. -/
def answer? : Outcome → Option String
  | done answer => some answer
  | failed _ => none

/-- The fault, of a run that failed. -/
def fault? : Outcome → Option Fault
  | done _ => none
  | failed fault => some fault

end Outcome

/-- The report of a run. -/
structure Report where
  outcome : Outcome
  journal : Journal
  deriving DecidableEq

namespace Report

/-- The report of a run that ended with a result. -/
def of (result : Except Fault String) (journal : Journal) : Report :=
  match result with
  | .ok answer =>
      ⟨.done answer, ((journal.close .done "answer ready").tell (.done answer)).finish⟩
  | .error fault =>
      let reason := Outcome.reason fault
      ⟨.failed fault, ((journal.close .failed reason).tell (.failed reason)).finish⟩

end Report

namespace Crew

variable {σ : Type}

/-- Iterate until the run is over; `left` iterations may still begin. -/
def carryOn (crew : Crew σ) (limit : Nat) :
    (left : Nat) → Option Plan → Journal → σ → Ending String × Journal × σ
  | 0, _, journal, state =>
      match crew.look state with
      | (some fault, state) => (.fault fault, journal, state)
      | (none, state) => (.fault (.iterationLimit limit), journal, state)
  | left + 1, pending, journal, state =>
      match crew.look state with
      | (some fault, state) => (.fault fault, journal, state)
      | (none, state) =>
          match crew.iterate pending journal state with
          | (.ended ending, journal, state) => (ending, journal, state)
          | (.goOn plan, journal, state) => carryOn crew limit left (some plan) journal state

/-- The number of iterations that a run may take; at least one. -/
def iterations (limit : Nat) : Nat := max limit 1

/-- Run for an objective: the report, unless the run broke down. -/
def run (crew : Crew σ) (limit : Nat) (runId objective : String) (state : σ) :
    Option Report × σ :=
  let (ending, journal, state) :=
    crew.carryOn (iterations limit) (iterations limit) none (.start runId objective) state
  match ending with
  | .brokeDown => (none, state)
  | .finished result => (some (.of result journal), state)

end Crew

end Runbook
