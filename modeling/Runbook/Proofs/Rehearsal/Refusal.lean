import Runbook.Plan.Basic
import Runbook.Proofs.Batch.Conduct
import Runbook.Rehearsal.Scene

namespace Runbook

/-!
# Dependencies that are refused

Calls are refused for one reason: there are some, and their table has a cycle.  It does not
matter whether the cycle goes through the calls.  The fault is the one that the graph of the
same plan gives, it names an id on a cycle, and nothing at all is done.
-/

namespace Dependency

/-- An id depends on itself, directly or through others. -/
def OnCycle (table : List (String × List String)) (id : String) : Prop :=
  Relation.TransGen (Listed table) id id

theorem acyclic_iff
    {table : List (String × List String)} :
    Acyclic table ↔ ¬ ∃ id, OnCycle table id :=
  not_exists.symm

end Dependency

namespace Schedule

/-- A cycle of the graph of a batch is one of its table. -/
theorem onCycle_of_graphOf
    {calls : List Call}
    {table : List (String × List String)}
    {id : String}
    (cycle : Relation.TransGen (graphOf calls table).Edge id id) :
    Dependency.OnCycle table id := by
  have listed :
      ∀ first second, (graphOf calls table).Edge first second →
        Dependency.Listed table first second :=
    fun first second => (edge_graphOf calls table first second).mp
  exact Relation.TransGen.mono listed id id cycle

/-- And a cycle of the table is one of the graph. -/
theorem acyclic_of_graphOf
    {calls : List Call}
    {table : List (String × List String)}
    (acyclic : (graphOf calls table).Acyclic) :
    Dependency.Acyclic table := by
  have edges :
      ∀ first second, Dependency.Listed table first second →
        (graphOf calls table).Edge first second :=
    fun first second => (edge_graphOf calls table first second).mpr
  intro id cycle
  exact acyclic id (Relation.TransGen.mono edges id id cycle)

/-- Calls have no schedule where their graph has no order, and for the same fault. -/
theorem ofDependencies_eq_error_iff
    {calls : List Call}
    {table : List (String × List String)}
    {fault : Fault} :
    ofDependencies calls table = .error fault ↔
      (graphOf calls table).order = .error fault := by
  cases ordered : (graphOf calls table).order with
  | ok order =>
      rw [ofDependencies_of_order ordered]
      exact ⟨nofun, nofun⟩
  | error other =>
      have fails : ofDependencies calls table = .error other := by
        simp only [ofDependencies, ordered]
        rfl
      rw [fails, Except.error.injEq, Except.error.injEq]

end Schedule

namespace Execution

/-- A missing table is an empty one, and the graph of an empty one has an order. -/
theorem scheduleOf_eq_error_iff
    {calls : List Call}
    {table : Option (List (String × List String))}
    {fault : Fault} :
    scheduleOf calls table = .error fault ↔
      (Plan.graph ⟨calls, table.getD []⟩).order = .error fault := by
  have independent :
      (Except.ok (.independent calls.length) : Except Fault Schedule) = .error fault ↔
        (Schedule.graphOf calls []).order = .error fault := by
    have noCycle : Dependency.Acyclic [] := by
      intro id cycle
      obtain ⟨next, first, _⟩ := Relation.TransGen.head'_iff.mp cycle
      exact Dependency.not_listed_nil id next first
    obtain ⟨order, ordered⟩ :=
      DependencyGraph.order_isOk_of_acyclic (Schedule.acyclic_graphOf calls noCycle)
    rw [ordered]
    exact ⟨nofun, nofun⟩
  match table with
  | none =>
      exact independent
  | some [] =>
      exact independent
  | some (entry :: rest) =>
      exact Schedule.ofDependencies_eq_error_iff

/-- Calls have no schedule exactly where their table has a cycle. -/
theorem exists_scheduleOf_error_iff
    (calls : List Call)
    (table : Option (List (String × List String))) :
    (∃ fault, scheduleOf calls table = .error fault) ↔
      ∃ id, Dependency.OnCycle (table.getD []) id := by
  constructor
  · rintro ⟨fault, fails⟩
    obtain ⟨name, _, cycle⟩ :=
      DependencyGraph.cycle_of_order_error (scheduleOf_eq_error_iff.mp fails)
    exact ⟨name, Schedule.onCycle_of_graphOf cycle⟩
  · intro cyclic
    cases ordered : (Schedule.graphOf calls (table.getD [])).order with
    | error fault =>
        exact ⟨fault, scheduleOf_eq_error_iff.mpr ordered⟩
    | ok order =>
        have acyclic :=
          Schedule.acyclic_of_graphOf (DependencyGraph.acyclic_of_order_ok ordered)
        exact absurd cyclic (Dependency.acyclic_iff.mp acyclic)

/-- There are calls and they have no schedule, or they are not refused. -/
theorem of_eq_refused_iff
    {config : BatchConfig}
    {calls : List Call}
    {table : Option (List (String × List String))}
    {limit : Nat}
    {fault : Fault} :
    of config calls table limit = .refused fault ↔
      calls ≠ [] ∧ scheduleOf calls table = .error fault := by
  match calls with
  | [] =>
      exact ⟨nofun, fun isRefused => absurd rfl isRefused.1⟩
  | first :: rest =>
      cases made : scheduleOf (first :: rest) table with
      | error other =>
          simp [of, made]
      | ok schedule =>
          cases rest <;> simp [of, made]

end Execution

namespace Rehearsal.World

/-- Calls are refused where they are not even begun, and the world stays as it is. -/
theorem carryOut_eq_refused_iff
    {setup : Setup}
    {context : Nat}
    {calls : List Call}
    {table : Option (List (String × List String))}
    {limit : Nat}
    {world later : World}
    {fault : Fault} :
    world.carryOut setup context calls table limit = (.refused fault, later) ↔
      Execution.of setup.batch calls table limit = .refused fault ∧ later = world := by
  cases execution : Execution.of setup.batch calls table limit with
  | nothing =>
      simp [carryOut, execution]
  | refused other =>
      simp [carryOut, execution, eq_comm]
  | alone call =>
      simp only [carryOut, execution, reduceCtorEq, false_and, iff_false]
      split <;> simp
  | batch batch =>
      simp only [carryOut, execution, reduceCtorEq, false_and, iff_false]
      split
      · simp
      · split <;> simp

/-- Calls are refused exactly where there are some and their table has a cycle.  The fault
is that of the graph of the plan and names an id on a cycle; no task is ever started, and
nothing in the world changes. -/
theorem refuses_cycles
    (setup : Setup)
    (context : Nat)
    (calls : List Call)
    (table : Option (List (String × List String)))
    (limit : Nat)
    (world : World) :
    ((∃ fault later,
        world.carryOut setup context calls table limit = (.refused fault, later)) ↔
      calls ≠ [] ∧ ∃ id, Dependency.OnCycle (table.getD []) id) ∧
    ∀ fault later,
      world.carryOut setup context calls table limit = (.refused fault, later) →
        (∃ id, fault = .cyclicDependency id ∧ Dependency.OnCycle (table.getD []) id) ∧
          (Plan.graph ⟨calls, table.getD []⟩).order = .error fault ∧
            later = world ∧
              ∀ now conduct,
                Conduct.Reaches setup.policy (.start setup.batch calls table limit now) conduct →
                  conduct = .settled (.refused fault) := by
  constructor
  · rw [← Execution.exists_scheduleOf_error_iff calls table]
    simp only [carryOut_eq_refused_iff, Execution.of_eq_refused_iff, exists_and_left,
      exists_eq, and_true]
  · intro fault later isRefused
    obtain ⟨refused, isLater⟩ := carryOut_eq_refused_iff.mp isRefused
    obtain ⟨_, noSchedule⟩ := Execution.of_eq_refused_iff.mp refused
    have noOrder := Execution.scheduleOf_eq_error_iff.mp noSchedule
    obtain ⟨name, isCyclic, cycle⟩ := DependencyGraph.cycle_of_order_error noOrder
    refine ⟨⟨name, isCyclic, Schedule.onCycle_of_graphOf cycle⟩, noOrder, isLater, ?_⟩
    intro now conduct reaches
    simp only [Conduct.start, refused] at reaches
    exact Conduct.settled_of_reaches reaches

end Rehearsal.World

/-- A call is refused for a cycle that it has no part in. -/
example :
    Execution.of {} [⟨"a", "t", .null, none⟩] (some [("x", ["y"]), ("y", ["x"])]) 1 =
      .refused (.cyclicDependency "x") := by
  decide +kernel

end Runbook
