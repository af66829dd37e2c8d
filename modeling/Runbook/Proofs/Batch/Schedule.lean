import Runbook.Batch.Execution
import Runbook.Proofs.Dependency.Order

namespace Runbook

/-!
# Schedules and the batches they start

A schedule has one list of awaited ids for each call, so that a batch has one task for
each call.  A call awaits exactly the ids that the table lists for it and that some call
of the batch has.  Tables without cycles always have a schedule.
-/

namespace Schedule

/-- The schedule that an order of the graph gives. -/
theorem ofDependencies_of_order
    {calls : List Call}
    {table : List (String × List String)}
    {order : List String}
    (ordered : (graphOf calls table).order = .ok order) :
    ofDependencies calls table = .ok {
      ranks := (calls.map (·.id)).map fun id => order.idxOf id
      awaited := (calls.map (·.id)).map fun id =>
        ((graphOf calls table).dependsOn id).filter (· ∈ calls.map (·.id)) } := by
  simp only [ofDependencies, ordered]
  rfl

/-- Calls under a table without cycles have a schedule. -/
theorem ofDependencies_isOk_of_acyclic
    (calls : List Call)
    {table : List (String × List String)}
    (acyclic : Dependency.Acyclic table) :
    ∃ schedule, ofDependencies calls table = .ok schedule := by
  obtain ⟨order, ordered⟩ :=
    DependencyGraph.order_isOk_of_acyclic (acyclic_graphOf calls acyclic)
  exact ⟨_, ofDependencies_of_order ordered⟩

/-- Putting a position at its place keeps the positions that are there. -/
theorem mem_insertByRank
    (ranks : List Nat)
    (index other : Nat)
    (sorted : List Nat) :
    other ∈ insertByRank ranks index sorted ↔ other = index ∨ other ∈ sorted := by
  induction sorted with
  | nil =>
      simp [insertByRank]
  | cons head rest inductionHypothesis =>
      rw [insertByRank]
      split
      · simp
      · simp [inductionHypothesis, or_left_comm]

/-- Every call has its turn in the order in which calls are started. -/
theorem mem_startOrder
    (schedule : Schedule)
    (index : Nat) :
    index ∈ schedule.startOrder ↔ index < schedule.ranks.length := by
  have sorted :
      ∀ positions : List Nat,
        index ∈ positions.foldr (insertByRank schedule.ranks) [] ↔
          index ∈ positions := by
    intro positions
    induction positions with
    | nil =>
        simp
    | cons position rest inductionHypothesis =>
        simp [mem_insertByRank, inductionHypothesis]
  simp [startOrder, sorted]

/-- Every call of a schedule has a rank and awaits what the table lists for it. -/
def Awaits
    (schedule : Schedule)
    (calls : List Call)
    (table : List (String × List String)) : Prop :=
  schedule.ranks.length = calls.length ∧ schedule.awaited.length = calls.length ∧
    ∀ (index : Nat) (call : Call) (awaited : List String),
      calls[index]? = some call →
      schedule.awaited[index]? = some awaited →
      ∀ id, id ∈ awaited ↔
        Dependency.Listed table call.id id ∧ ∃ other ∈ calls, other.id = id

/-- Calls that do not depend on each other await nothing. -/
theorem awaits_independent
    (calls : List Call) :
    (independent calls.length).Awaits calls [] := by
  refine ⟨by simp [independent], by simp [independent], ?_⟩
  intro index call awaited _ found id
  have isEmpty : awaited = [] := by
    have member : awaited ∈ List.replicate calls.length ([] : List String) :=
      List.mem_of_getElem? found
    exact (List.mem_replicate.mp member).2
  simp [isEmpty]

/-- A call awaits the ids that are listed for it and belong to the batch. -/
theorem awaits_ofDependencies
    {calls : List Call}
    {table : List (String × List String)}
    {schedule : Schedule}
    (made : ofDependencies calls table = .ok schedule) :
    schedule.Awaits calls table := by
  cases ordered : (graphOf calls table).order with
  | error fault =>
      simp only [ofDependencies, ordered] at made
      cases made
  | ok order =>
      rw [ofDependencies_of_order ordered] at made
      cases made
      refine ⟨by simp, by simp, ?_⟩
      intro index call awaited callFound awaitedFound id
      have shape :
          ((graphOf calls table).dependsOn call.id).filter
              (· ∈ calls.map (·.id)) = awaited := by
        simpa [callFound] using awaitedFound
      rw [← shape, List.mem_filter]
      have edge := edge_graphOf calls table call.id id
      unfold DependencyGraph.Edge at edge
      rw [edge]
      simp

end Schedule

namespace Execution

/-- Calls have a schedule in which each awaits what is listed for it, unless the table
has a cycle. -/
theorem scheduleOf_isOk_of_acyclic
    (calls : List Call)
    {table : Option (List (String × List String))}
    (acyclic : Dependency.Acyclic (table.getD [])) :
    ∃ schedule, scheduleOf calls table = .ok schedule := by
  match table, acyclic with
  | none, _ =>
      exact ⟨_, rfl⟩
  | some [], _ =>
      exact ⟨_, rfl⟩
  | some (entry :: rest), acyclic =>
      exact Schedule.ofDependencies_isOk_of_acyclic calls acyclic

/-- Each call of a schedule awaits what is listed for it. -/
theorem awaits_scheduleOf
    {calls : List Call}
    {table : Option (List (String × List String))}
    {schedule : Schedule}
    (made : scheduleOf calls table = .ok schedule) :
    schedule.Awaits calls (table.getD []) := by
  match table, made with
  | none, made =>
      cases made
      exact Schedule.awaits_independent calls
  | some [], made =>
      cases made
      exact Schedule.awaits_independent calls
  | some (entry :: rest), made =>
      exact Schedule.awaits_ofDependencies made

end Execution

end Runbook
