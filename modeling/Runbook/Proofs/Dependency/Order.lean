import Mathlib.Data.List.Perm.Subperm
import Runbook.Proofs.Dependency.Table

namespace Runbook

/-!
# Orders and cycles

The order of a graph is found by visiting each name after the names it depends on.  A
visit fails only where it meets a name that is being visited already, and the names
being visited depend on one another in a chain: in a graph without cycles every visit
succeeds.  The names of a path are distinct, so the fuel of a visit does not run out.

A visit that succeeds lists a name after all that it depends on.  So a graph that has an
order has no cycle, and where there is none the fault names what lies on a cycle.
-/

namespace DependencyGraph

/-- What a name depends on is a name of the graph. -/
theorem mem_allNames_of_edge
    {graph : DependencyGraph}
    {name dependency : String}
    (edge : graph.Edge name dependency) :
    dependency ∈ graph.allNames := by
  unfold Edge dependsOn at edge
  split at edge
  case h_1 node found =>
    have member : node ∈ graph.nodes := List.mem_of_find?_eq_some found
    exact List.mem_flatMap.mpr
      ⟨node, member, List.mem_cons_of_mem _ edge⟩
  case h_2 =>
    simp at edge

/-- A declared name is a name of the graph. -/
theorem mem_allNames_of_mem_names
    {graph : DependencyGraph}
    {name : String}
    (declared : name ∈ graph.names) :
    name ∈ graph.allNames := by
  obtain ⟨node, member, isName⟩ := List.mem_map.mp declared
  exact List.mem_flatMap.mpr
    ⟨node, member, by simp [isName]⟩

/-- Steps that succeed from everywhere succeed one after the other. -/
theorem foldlM_isOk
    {visitFrom : List String → String → Except Fault (List String)}
    {names : List String}
    (succeeds : ∀ name ∈ names, ∀ done,
      ∃ later, visitFrom done name = .ok later)
    (done : List String) :
    ∃ later, names.foldlM visitFrom done = .ok later := by
  induction names generalizing done with
  | nil =>
      exact ⟨done, rfl⟩
  | cons name rest inductionHypothesis =>
      obtain ⟨middle, visited⟩ := succeeds name List.mem_cons_self done
      obtain ⟨later, finished⟩ :=
        inductionHypothesis
          (fun other member => succeeds other (List.mem_cons_of_mem _ member))
          middle
      refine ⟨later, ?_⟩
      rw [List.foldlM_cons, visited]
      exact finished

/--
A visit below a path of names that all lead to the visited one succeeds, as long as
fuel and path together exceed the number of names.
-/
theorem visit_isOk
    {graph : DependencyGraph}
    (acyclic : graph.Acyclic)
    {fuel : Nat}
    {path : List String}
    {name : String}
    (distinct : path.Nodup)
    (known : path ⊆ graph.allNames)
    (leads : ∀ above ∈ path, Relation.TransGen graph.Edge above name)
    (isName : name ∈ graph.allNames)
    (enough : graph.allNames.length < fuel + path.length)
    (done : List String) :
    ∃ later, graph.visit fuel path done name = .ok later := by
  induction fuel generalizing path name done with
  | zero =>
      have bound : path.length ≤ graph.allNames.length :=
        (List.subperm_of_subset distinct known).length_le
      omega
  | succ fuel inductionHypothesis =>
      have notOnPath : name ∉ path :=
        fun member => acyclic name (leads name member)
      by_cases visited : name ∈ done
      · exact ⟨done, by rw [visit, if_pos visited]⟩
      · rw [visit, if_neg visited, if_neg notOnPath]
        have visitsBelow :
            ∀ dependency ∈ graph.dependsOn name, ∀ done,
              ∃ later,
                visit graph fuel (name :: path) done dependency = .ok later := by
          intro dependency edge done
          refine inductionHypothesis
            (List.nodup_cons.mpr ⟨notOnPath, distinct⟩)
            (List.cons_subset.mpr ⟨isName, known⟩)
            ?_ (mem_allNames_of_edge edge) ?_ done
          · intro above member
            rcases List.mem_cons.mp member with isTop | onPath
            · rw [isTop]
              exact .single edge
            · exact (leads above onPath).tail edge
          · rw [List.length_cons]
            omega
        obtain ⟨below, visitedBelow⟩ := foldlM_isOk visitsBelow done
        refine ⟨below ++ [name], ?_⟩
        rw [visitedBelow]
        rfl

/-- A graph without cycles has an order. -/
theorem order_isOk_of_acyclic
    {graph : DependencyGraph}
    (acyclic : graph.Acyclic) :
    ∃ order, graph.order = .ok order := by
  unfold order
  refine foldlM_isOk ?_ []
  intro name declared done
  exact visit_isOk acyclic List.nodup_nil (List.nil_subset _)
    (by simp) (mem_allNames_of_mem_names declared) (by simp) done

/-- Where steps one after the other fail, one of them does. -/
theorem foldlM_error
    {visitFrom : List String → String → Except Fault (List String)}
    {names done : List String}
    {fault : Fault}
    (fails : names.foldlM visitFrom done = .error fault) :
    ∃ middle, ∃ name ∈ names, visitFrom middle name = .error fault := by
  induction names generalizing done with
  | nil =>
      cases fails
  | cons name rest inductionHypothesis =>
      rw [List.foldlM_cons] at fails
      cases visited : visitFrom done name with
      | error other =>
          rw [visited] at fails
          cases fails
          exact ⟨done, name, List.mem_cons_self, visited⟩
      | ok middle =>
          rw [visited] at fails
          obtain ⟨later, other, member, failsAt⟩ := inductionHypothesis fails
          exact ⟨later, other, List.mem_cons_of_mem _ member, failsAt⟩

/--
A visit below a path of names that all lead to the visited one fails only at a name that
depends on itself, as long as fuel and path together exceed the number of names.
-/
theorem cycle_of_visit_error
    {graph : DependencyGraph}
    {fuel : Nat}
    {path done : List String}
    {name : String}
    {fault : Fault}
    (distinct : path.Nodup)
    (known : path ⊆ graph.allNames)
    (leads : ∀ above ∈ path, Relation.TransGen graph.Edge above name)
    (isName : name ∈ graph.allNames)
    (enough : graph.allNames.length < fuel + path.length)
    (fails : graph.visit fuel path done name = .error fault) :
    ∃ other, fault = .cyclicDependency other ∧
      Relation.TransGen graph.Edge other other := by
  induction fuel generalizing path done name with
  | zero =>
      have bound : path.length ≤ graph.allNames.length :=
        (List.subperm_of_subset distinct known).length_le
      omega
  | succ fuel inductionHypothesis =>
      rw [visit] at fails
      split at fails
      case isTrue =>
        cases fails
      case isFalse =>
        split at fails
        case isTrue onPath =>
          cases fails
          exact ⟨name, rfl, leads name onPath⟩
        case isFalse notOnPath =>
          cases visited :
              (graph.dependsOn name).foldlM (visit graph fuel (name :: path)) done with
          | ok later =>
              rw [visited] at fails
              cases fails
          | error other =>
              rw [visited] at fails
              cases fails
              obtain ⟨middle, below, edge, failsBelow⟩ := foldlM_error visited
              refine inductionHypothesis
                (List.nodup_cons.mpr ⟨notOnPath, distinct⟩)
                (List.cons_subset.mpr ⟨isName, known⟩)
                ?_ (mem_allNames_of_edge edge) ?_ failsBelow
              · intro above member
                rcases List.mem_cons.mp member with isTop | onPath
                · rw [isTop]
                  exact .single edge
                · exact (leads above onPath).tail edge
              · rw [List.length_cons]
                omega

/-- A graph that has no order has a cycle, and its fault names what lies on one. -/
theorem cycle_of_order_error
    {graph : DependencyGraph}
    {fault : Fault}
    (fails : graph.order = .error fault) :
    ∃ name, fault = .cyclicDependency name ∧ Relation.TransGen graph.Edge name name := by
  obtain ⟨done, name, declared, failsAt⟩ := foldlM_error fails
  exact cycle_of_visit_error List.nodup_nil (List.nil_subset _) (by simp)
    (mem_allNames_of_mem_names declared) (by simp) failsAt

/-- Every name is listed after all that it depends on. -/
def Sorted (graph : DependencyGraph) (done : List String) : Prop :=
  ∀ earlier name later,
    done = earlier ++ name :: later →
      ∀ dependency, graph.Edge name dependency → dependency ∈ earlier

theorem sorted_nil
    (graph : DependencyGraph) :
    graph.Sorted [] := by
  intro earlier name later isSplit
  simp at isSplit

/-- A name may be listed once all that it depends on is. -/
theorem Sorted.concat
    {graph : DependencyGraph}
    {done : List String}
    {name : String}
    (sorted : graph.Sorted done)
    (follows : ∀ dependency, graph.Edge name dependency → dependency ∈ done) :
    graph.Sorted (done ++ [name]) := by
  intro earlier other later isSplit
  rcases List.eq_nil_or_concat later with rfl | ⟨rest, last, rfl⟩
  · obtain ⟨isDone, isName⟩ := List.append_inj' isSplit rfl
    cases isName
    rw [← isDone]
    exact follows
  · rw [List.concat_eq_append, ← List.cons_append, ← List.append_assoc] at isSplit
    obtain ⟨isDone, _⟩ := List.append_inj' isSplit rfl
    exact sorted earlier other rest isDone

/-- What a visit makes of a list: it grows, holds the visited name and stays sorted. -/
structure Visits (graph : DependencyGraph) (name : String) (done later : List String) :
    Prop where
  grows :
    done <+: later
  holds :
    name ∈ later
  sorts :
    graph.Sorted done → graph.Sorted later

/-- Visits one after the other hold all their names in the end. -/
theorem visits_foldlM
    {graph : DependencyGraph}
    {visitFrom : List String → String → Except Fault (List String)}
    {names done later : List String}
    (visits : ∀ name done later,
      visitFrom done name = .ok later → graph.Visits name done later)
    (succeeds : names.foldlM visitFrom done = .ok later) :
    done <+: later ∧ (∀ name ∈ names, name ∈ later) ∧
      (graph.Sorted done → graph.Sorted later) := by
  induction names generalizing done with
  | nil =>
      cases succeeds
      exact ⟨List.prefix_rfl, by simp, id⟩
  | cons name rest inductionHypothesis =>
      rw [List.foldlM_cons] at succeeds
      cases visited : visitFrom done name with
      | error fault =>
          rw [visited] at succeeds
          cases succeeds
      | ok middle =>
          rw [visited] at succeeds
          have first := visits name done middle visited
          obtain ⟨grows, holds, sorts⟩ := inductionHypothesis succeeds
          refine ⟨first.grows.trans grows, ?_, fun sorted => sorts (first.sorts sorted)⟩
          intro other member
          rcases List.mem_cons.mp member with isFirst | inRest
          · rw [isFirst]
            exact grows.subset first.holds
          · exact holds other inRest

/-- A visit that succeeds lists the name after all that it depends on. -/
theorem visits_of_visit_ok
    {graph : DependencyGraph}
    {fuel : Nat}
    {path done later : List String}
    {name : String}
    (succeeds : graph.visit fuel path done name = .ok later) :
    graph.Visits name done later := by
  induction fuel generalizing path done later name with
  | zero =>
      cases succeeds
  | succ fuel inductionHypothesis =>
      rw [visit] at succeeds
      split at succeeds
      case isTrue isDone =>
        cases succeeds
        exact ⟨List.prefix_rfl, isDone, id⟩
      case isFalse =>
        split at succeeds
        case isTrue =>
          cases succeeds
        case isFalse =>
          cases visited :
              (graph.dependsOn name).foldlM (visit graph fuel (name :: path)) done with
          | error fault =>
              rw [visited] at succeeds
              cases succeeds
          | ok below =>
              rw [visited] at succeeds
              cases succeeds
              obtain ⟨grows, holds, sorts⟩ :=
                visits_foldlM (fun _ _ _ => inductionHypothesis) visited
              exact ⟨grows.trans (List.prefix_append _ _), by simp,
                fun sorted => (sorts sorted).concat holds⟩

/-- The order of a graph holds every declared name, after all that it depends on. -/
theorem sorted_of_order_ok
    {graph : DependencyGraph}
    {order : List String}
    (ordered : graph.order = .ok order) :
    (∀ name ∈ graph.names, name ∈ order) ∧ graph.Sorted order := by
  obtain ⟨_, holds, sorts⟩ :=
    visits_foldlM (fun _ _ _ => visits_of_visit_ok) ordered
  exact ⟨holds, sorts (sorted_nil graph)⟩

/-- What depends on something is declared. -/
theorem mem_names_of_edge
    {graph : DependencyGraph}
    {name dependency : String}
    (edge : graph.Edge name dependency) :
    name ∈ graph.names := by
  unfold Edge dependsOn get? at edge
  split at edge
  case h_1 node found =>
    have isName : node.name = name := by
      simpa using List.find?_some found
    exact List.mem_map.mpr ⟨node, List.mem_of_find?_eq_some found, isName⟩
  case h_2 =>
    simp at edge

/-- In the order of a graph a name stands behind all that it depends on. -/
theorem idxOf_lt_of_order_ok
    {graph : DependencyGraph}
    {order : List String}
    (ordered : graph.order = .ok order)
    {name dependency : String}
    (edge : graph.Edge name dependency) :
    order.idxOf dependency < order.idxOf name := by
  obtain ⟨holds, sorted⟩ := sorted_of_order_ok ordered
  obtain ⟨earlier, later, isOrder, notEarlier⟩ :=
    List.eq_append_cons_of_mem (holds name (mem_names_of_edge edge))
  have isEarlier := sorted earlier name later isOrder dependency edge
  have dependencyAt : order.idxOf dependency < earlier.length := by
    rw [isOrder, List.idxOf_append_of_mem isEarlier]
    exact List.idxOf_lt_length_of_mem isEarlier
  have nameAt : order.idxOf name = earlier.length := by
    rw [isOrder, List.idxOf_append_of_notMem notEarlier, List.idxOf_cons_self]
    exact Nat.add_zero _
  omega

/-- A graph that has an order has no cycle. -/
theorem acyclic_of_order_ok
    {graph : DependencyGraph}
    {order : List String}
    (ordered : graph.order = .ok order) :
    graph.Acyclic :=
  Dependency.not_transGen_self_of_rank order.idxOf
    fun _ _ => idxOf_lt_of_order_ok ordered

end DependencyGraph

end Runbook
