import Runbook.Batch.Basic

namespace Runbook

/-!
# Carrying out calls

How a list of calls is carried out is settled before any of them starts: an empty
list needs nothing, a table with a cycle is refused, one call alone is carried out
as it is, and two or more become a batch.  In chunks, every chunk becomes a batch
of its own, even if it holds one call.
-/

/-- How a list of calls is carried out. -/
inductive Execution where
  /-- There is nothing to do. -/
  | nothing
  /-- The dependencies are refused. -/
  | refused (fault : Fault)
  /-- One call, alone. -/
  | alone (call : Call)
  /-- Calls side by side. -/
  | batch (batch : Batch)
  deriving DecidableEq

/-- How carrying out calls ends. -/
inductive Carried where
  /-- Every call is settled. -/
  | calls (calls : List Call)
  /-- The dependencies are refused, and nothing was done. -/
  | refused (fault : Fault)
  | brokeDown
  deriving DecidableEq

namespace Execution

/-- The largest number of permits there can be. -/
def maxPermits : Nat := 2305843009213693951

/-- The schedule of calls; a missing or empty table leaves them independent. -/
def scheduleOf (calls : List Call) (table : Option (List (String × List String))) :
    Except Fault Schedule :=
  match table with
  | none => .ok (.independent calls.length)
  | some [] => .ok (.independent calls.length)
  | some (entry :: rest) => Schedule.ofDependencies calls (entry :: rest)

/-- How calls are carried out, at most `limit` of them at once. -/
def of (config : BatchConfig) (calls : List Call)
    (table : Option (List (String × List String))) (limit : Nat) : Execution :=
  match calls with
  | [] => nothing
  | first :: rest =>
      match scheduleOf (first :: rest) table with
      | .error fault => refused fault
      | .ok schedule =>
          match rest with
          | [] => alone first
          | _ :: _ =>
              batch (.start (first :: rest) schedule (max limit 1) (!config.continueOnError))

/-- Whether the machinery breaks down before the first call: there cannot be that many
permits. -/
def breaksDown : Execution → Bool
  | batch started => maxPermits < started.permits
  | _ => false

/-- The batch that a chunk of calls becomes. -/
def chunkBatch (config : BatchConfig) (chunk : List Call) : Batch :=
  .start chunk (.independent chunk.length) (max config.maxConcurrency 1)
    (!config.continueOnError)

/-- The size of chunks; zero stands for the number of calls that run at once. -/
def chunkSize (config : BatchConfig) (size : Nat) : Nat :=
  if size = 0 then max config.maxConcurrency 1 else size

/-- Calls in chunks of a size. -/
def chunks (size : Nat) (calls : List Call) : List (List Call) :=
  match calls with
  | [] => []
  | first :: rest => (first :: rest.take (size - 1)) :: chunks size (rest.drop (size - 1))
termination_by calls.length
decreasing_by
  simp only [List.length_drop, List.length_cons]
  omega

end Execution

end Runbook
