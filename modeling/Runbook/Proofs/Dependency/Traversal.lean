import Mathlib.Data.List.Nodup
import Runbook.Proofs.Dependency.Order

namespace Runbook

/-!
# The order of a graph as a traversal

The recursion that finds the order of a graph is bounded by the number of names.  Here it is
said without a bound, as a relation with one constructor for each thing that can happen at a
name, and the two agree: the bound is never met, so the recursion ends by itself, in one
result only.

A graph is built from a table and then by adding dependencies and names in any order.  What
was declared on the way is a table again, and its cycles decide whether the graph has an
order, whatever parts of it are shared.
-/

namespace DependencyGraph

/--
Names are visited one after the other, below a path of names whose visit is under way.  Each
visited name follows what it depends on; a name that is met on its own path ends it all.
-/
inductive Traverses (graph : DependencyGraph) :
    (path done names : List String) → Except Fault (List String) → Prop where
  | finished {path done : List String} :
      Traverses graph path done [] (.ok done)
  | known {path done rest : List String} {name : String}
      {result : Except Fault (List String)} :
      name ∈ done →
      Traverses graph path done rest result →
      Traverses graph path done (name :: rest) result
  | cyclic {path done rest : List String} {name : String} :
      name ∉ done →
      name ∈ path →
      Traverses graph path done (name :: rest) (.error (.cyclicDependency name))
  | fails {path done rest : List String} {name : String} {fault : Fault} :
      name ∉ done →
      name ∉ path →
      Traverses graph (name :: path) done (graph.dependsOn name) (.error fault) →
      Traverses graph path done (name :: rest) (.error fault)
  | visits {path done below rest : List String} {name : String}
      {result : Except Fault (List String)} :
      name ∉ done →
      name ∉ path →
      Traverses graph (name :: path) done (graph.dependsOn name) (.ok below) →
      Traverses graph path (below ++ [name]) rest result →
      Traverses graph path done (name :: rest) result

namespace Traverses

variable {graph : DependencyGraph} {path done names : List String}

/-- A traversal has one result. -/
theorem unique
    {first second : Except Fault (List String)}
    (traverses : graph.Traverses path done names first)
    (again : graph.Traverses path done names second) :
    first = second := by
  induction traverses generalizing second with
  | finished =>
      cases again
      rfl
  | known isDone _ inductionHypothesis =>
      cases again with
      | known _ rest =>
          exact inductionHypothesis rest
      | cyclic notDone _ =>
          exact absurd isDone notDone
      | fails notDone _ _ =>
          exact absurd isDone notDone
      | visits notDone _ _ _ =>
          exact absurd isDone notDone
  | cyclic notDone onPath =>
      cases again with
      | known isDone _ =>
          exact absurd isDone notDone
      | cyclic _ _ =>
          rfl
      | fails _ notOnPath _ =>
          exact absurd onPath notOnPath
      | visits _ notOnPath _ _ =>
          exact absurd onPath notOnPath
  | fails notDone notOnPath _ inductionHypothesis =>
      cases again with
      | known isDone _ =>
          exact absurd isDone notDone
      | cyclic _ onPath =>
          exact absurd onPath notOnPath
      | fails _ _ below =>
          exact inductionHypothesis below
      | visits _ _ below _ =>
          cases inductionHypothesis below
  | visits notDone notOnPath _ _ belowHypothesis restHypothesis =>
      cases again with
      | known isDone _ =>
          exact absurd isDone notDone
      | cyclic _ onPath =>
          exact absurd onPath notOnPath
      | fails _ _ below =>
          cases belowHypothesis below
      | visits _ _ below rest =>
          cases belowHypothesis below
          exact restHypothesis rest

/-- What a traversal that succeeds adds to a list. -/
structure Adds (graph : DependencyGraph) (path done names later : List String) : Prop where
  nodup :
    done.Nodup → later.Nodup
  avoids :
    ∀ name ∈ path, name ∈ later → name ∈ done
  source :
    ∀ name ∈ later, name ∈ done ∨ name ∈ names ∨ ∃ above, graph.Edge above name

/-- A traversal lists a name once, none of its path, and only names that it comes to. -/
theorem adds
    {later : List String}
    (traverses : graph.Traverses path done names (.ok later)) :
    Adds graph path done names later := by
  generalize isResult : (Except.ok later : Except Fault (List String)) = result at traverses
  induction traverses generalizing later with
  | finished =>
      cases isResult
      exact ⟨id, fun _ _ => id, fun _ => Or.inl⟩
  | known _ _ inductionHypothesis =>
      obtain ⟨nodup, avoids, source⟩ := inductionHypothesis isResult
      refine ⟨nodup, avoids, ?_⟩
      intro name isListed
      exact (source name isListed).imp_right (Or.imp_left (List.mem_cons_of_mem _))
  | cyclic _ _ =>
      cases isResult
  | fails _ _ _ _ =>
      cases isResult
  | @visits path done below rest visited _ notDone notOnPath _ _ belowHypothesis
      restHypothesis =>
      obtain ⟨nodupBelow, avoidsBelow, sourceBelow⟩ := belowHypothesis rfl
      obtain ⟨nodupRest, avoidsRest, sourceRest⟩ := restHypothesis isResult
      -- The visited name was on the path of the visits below it.
      have isNew : visited ∉ below :=
        fun isBelow => notDone (avoidsBelow visited List.mem_cons_self isBelow)
      refine ⟨?_, ?_, ?_⟩
      · intro nodup
        exact nodupRest
          ((nodupBelow nodup).append (List.nodup_singleton visited) (by simpa using isNew))
      · intro name onPath isListed
        rcases List.mem_append.mp (avoidsRest name onPath isListed) with isBelow | isVisited
        · exact avoidsBelow name (List.mem_cons_of_mem _ onPath) isBelow
        · exact absurd (List.mem_singleton.mp isVisited ▸ onPath) notOnPath
      · intro name isListed
        rcases sourceRest name isListed with isListedBefore | inRest | isDependency
        · rcases List.mem_append.mp isListedBefore with isBelow | isVisited
          · rcases sourceBelow name isBelow with isDone | edge | isDependency
            · exact Or.inl isDone
            · exact Or.inr (Or.inr ⟨visited, edge⟩)
            · exact Or.inr (Or.inr isDependency)
          · exact Or.inr (Or.inl (List.mem_singleton.mp isVisited ▸ List.mem_cons_self))
        · exact Or.inr (Or.inl (List.mem_cons_of_mem _ inRest))
        · exact Or.inr (Or.inr isDependency)

end Traverses

/--
Visits one after the other are a traversal, as long as fuel and path together exceed the
number of names: the names of a path are distinct, so it cannot grow any longer.
-/
theorem traverses_foldlM
    {graph : DependencyGraph}
    {fuel : Nat}
    {path names : List String}
    (distinct : path.Nodup)
    (known : path ⊆ graph.allNames)
    (areNames : names ⊆ graph.allNames)
    (enough : graph.allNames.length < fuel + path.length)
    (done : List String) :
    graph.Traverses path done names (names.foldlM (visit graph fuel path) done) := by
  induction fuel generalizing path names done with
  | zero =>
      have bound : path.length ≤ graph.allNames.length :=
        (List.subperm_of_subset distinct known).length_le
      omega
  | succ fuel belowHypothesis =>
      induction names generalizing done with
      | nil =>
          exact .finished
      | cons name rest restHypothesis =>
          obtain ⟨isName, areRest⟩ := List.cons_subset.mp areNames
          rw [List.foldlM_cons, visit]
          by_cases isDone : name ∈ done
          · rw [if_pos isDone]
            exact .known isDone (restHypothesis areRest done)
          · rw [if_neg isDone]
            by_cases onPath : name ∈ path
            · rw [if_pos onPath]
              exact .cyclic isDone onPath
            · rw [if_neg onPath]
              have below :
                  graph.Traverses (name :: path) done (graph.dependsOn name)
                    ((graph.dependsOn name).foldlM (visit graph fuel (name :: path)) done) :=
                belowHypothesis
                  (List.nodup_cons.mpr ⟨onPath, distinct⟩)
                  (List.cons_subset.mpr ⟨isName, known⟩)
                  (fun _ => mem_allNames_of_edge)
                  (by rw [List.length_cons]; omega)
                  done
              cases visited :
                  (graph.dependsOn name).foldlM (visit graph fuel (name :: path)) done with
              | error fault =>
                  rw [visited] at below
                  exact .fails isDone onPath below
              | ok later =>
                  rw [visited] at below
                  exact .visits isDone onPath below (restHypothesis areRest (later ++ [name]))

/-- The order of a graph is what the traversal of its names ends in. -/
theorem order_eq_iff
    {graph : DependencyGraph}
    {result : Except Fault (List String)} :
    graph.order = result ↔ graph.Traverses [] [] graph.names result := by
  have traverses : graph.Traverses [] [] graph.names graph.order :=
    traverses_foldlM List.nodup_nil (List.nil_subset _)
      (fun _ declared => mem_allNames_of_mem_names declared) (by simp) []
  constructor
  · intro isResult
    exact isResult ▸ traverses
  · exact traverses.unique

/-- Inserting a dependency declares its name and no other. -/
theorem mem_names_insert
    {dependency : Dependency}
    {nodes : List Dependency}
    {name : String} :
    name ∈ (insert dependency nodes).map (·.name) ↔
      name = dependency.name ∨ name ∈ nodes.map (·.name) := by
  induction nodes with
  | nil =>
      simp [insert]
  | cons head rest inductionHypothesis =>
      rw [insert]
      split
      case isTrue same =>
        simp [same]
      case isFalse =>
        split
        case isTrue =>
          simp
        case isFalse =>
          rw [List.map_cons, List.mem_cons, inductionHypothesis, List.map_cons, List.mem_cons]
          exact or_left_comm

/-- The graph of a table declares the ids that have an entry. -/
theorem mem_names_foldl_add
    {table : List (String × List String)}
    {graph : DependencyGraph}
    {name : String} :
    name ∈ (table.foldl (fun graph entry => graph.add (.of entry.1 entry.2)) graph).names ↔
      name ∈ table.map (·.1) ∨ name ∈ graph.names := by
  induction table generalizing graph with
  | nil =>
      simp
  | cons entry rest inductionHypothesis =>
      have added :
          name ∈ (graph.add (.of entry.1 entry.2)).names ↔
            name = entry.1 ∨ name ∈ graph.names :=
        mem_names_insert
      rw [List.foldl_cons, inductionHypothesis, added, List.map_cons, List.mem_cons]
      exact or_left_comm.trans or_assoc.symm

end DependencyGraph

namespace Dependency

variable {table : List (String × List String)}

/-- An entry behind a table lists its own dependencies for its own id. -/
theorem listed_concat
    {entry : String × List String}
    {id dependency : String} :
    Listed (table ++ [entry]) id dependency ↔
      (id = entry.1 ∧ dependency ∈ entry.2) ∨ Listed table id dependency := by
  induction table with
  | nil =>
      exact listed_cons
  | cons first rest inductionHypothesis =>
      rw [List.cons_append, listed_cons, inductionHypothesis, listed_cons]
      exact or_left_comm

/-- Some entry of a table is for a name or lists it. -/
def Mentioned (table : List (String × List String)) (name : String) : Prop :=
  name ∈ table.map (·.1) ∨ ∃ id, Listed table id name

/-- A list that holds every name of a table once, each after all that it depends on. -/
structure Orders (table : List (String × List String)) (order : List String) : Prop where
  nodup :
    order.Nodup
  mem_iff :
    ∀ name, name ∈ order ↔ Mentioned table name
  follows :
    ∀ id dependency, Listed table id dependency → order.idxOf dependency < order.idxOf id

end Dependency

namespace DependencyGraph

open Dependency

/--
A graph made from a table by adding dependencies and names, with the table of all that was
declared for it.
-/
inductive Built : DependencyGraph → List (String × List String) → Prop where
  | ofTable (table : List (String × List String)) :
      Built (ofTable table) table
  | add {graph : DependencyGraph} {table : List (String × List String)} :
      Built graph table →
      (dependency : Dependency) →
      Built (graph.add dependency) (table ++ [(dependency.name, dependency.dependsOn)])
  | addNode {graph : DependencyGraph} {table : List (String × List String)} :
      Built graph table →
      (name : String) →
      Built (graph.addNode name) (table ++ [(name, [])])

/-- A graph declares what a table lists, nothing else, with one node for a name. -/
structure Declares (graph : DependencyGraph) (table : List (String × List String)) :
    Prop where
  ordered :
    Ordered graph.nodes
  edge_iff :
    ∀ name other, graph.Edge name other ↔ Listed table name other
  mem_names_iff :
    ∀ name, name ∈ graph.names ↔ name ∈ table.map (·.1)

variable {graph : DependencyGraph} {table : List (String × List String)}

/-- Adding a dependency declares it beside what was declared before. -/
theorem Declares.add
    (declares : graph.Declares table)
    (dependency : Dependency) :
    (graph.add dependency).Declares
      (table ++ [(dependency.name, dependency.dependsOn)]) := by
  refine ⟨ordered_insert dependency declares.ordered, ?_, ?_⟩
  · intro name other
    refine (mem_dependsOn_insert dependency declares.ordered name other).trans ?_
    rw [listed_concat]
    exact or_congr_right (declares.edge_iff name other)
  · intro name
    refine mem_names_insert.trans ?_
    rw [List.map_append, List.mem_append, ← declares.mem_names_iff name]
    simp [names, or_comm]

/-- A graph declares what was declared on the way to it. -/
theorem Built.declares
    (built : graph.Built table) :
    graph.Declares table := by
  induction built with
  | ofTable table =>
      obtain ⟨ordered, edge⟩ :=
        foldl_add_table table (show Ordered empty.nodes from List.Pairwise.nil)
      refine ⟨ordered, ?_, ?_⟩
      · intro name other
        refine (edge name other).trans ?_
        simp [Edge, dependsOn, get?, empty]
      · intro name
        refine mem_names_foldl_add.trans ?_
        simp [names, empty]
  | add _ dependency inductionHypothesis =>
      exact inductionHypothesis.add dependency
  | addNode _ name inductionHypothesis =>
      exact inductionHypothesis.add ⟨name, []⟩

/-- The cycles of a graph are those of the table that it declares. -/
theorem Declares.transGen_iff
    (declares : graph.Declares table)
    {name other : String} :
    Relation.TransGen graph.Edge name other ↔
      Relation.TransGen (Listed table) name other := by
  constructor
  · exact Relation.TransGen.mono (fun first second => (declares.edge_iff first second).mp) _ _
  · exact Relation.TransGen.mono (fun first second => (declares.edge_iff first second).mpr) _ _

/-- The order of a graph orders what the graph declares. -/
theorem Declares.orders
    (declares : graph.Declares table)
    {order : List String}
    (ordered : graph.order = .ok order) :
    Orders table order := by
  obtain ⟨nodup, _, source⟩ := (order_eq_iff.mp ordered).adds
  obtain ⟨holds, _⟩ := sorted_of_order_ok ordered
  have follows :
      ∀ id dependency, Listed table id dependency →
        order.idxOf dependency < order.idxOf id :=
    fun id dependency listed =>
      idxOf_lt_of_order_ok ordered ((declares.edge_iff id dependency).mpr listed)
  refine ⟨nodup List.nodup_nil, ?_, follows⟩
  intro name
  constructor
  · intro isListed
    rcases source name isListed with isDone | isDeclared | ⟨above, edge⟩
    · simp at isDone
    · exact Or.inl ((declares.mem_names_iff name).mp isDeclared)
    · exact Or.inr ⟨above, (declares.edge_iff above name).mp edge⟩
  · rintro (isDeclared | ⟨id, listed⟩)
    · exact holds name ((declares.mem_names_iff name).mpr isDeclared)
    · -- It stands before another name, so it is there.
      have isBefore := follows id name listed
      exact List.idxOf_lt_length_iff.mp (isBefore.trans_le List.idxOf_le_length)

/--
A graph built in any way resolves.  The traversal of its names ends in one result; that is an
order exactly where nothing declared for the graph depends on itself, and then it holds every
name once, after all that the name depends on; otherwise it names an id on a cycle.
-/
theorem order_of_built
    (built : graph.Built table) :
    (∃! result, graph.Traverses [] [] graph.names result) ∧
      graph.Traverses [] [] graph.names graph.order ∧
        ((∃ order, graph.order = .ok order) ↔ Dependency.Acyclic table) ∧
          (∀ order, graph.order = .ok order → Orders table order) ∧
            ∀ fault, graph.order = .error fault →
              ∃ name, fault = .cyclicDependency name ∧
                Relation.TransGen (Listed table) name name := by
  have declares := built.declares
  have traverses : graph.Traverses [] [] graph.names graph.order := order_eq_iff.mp rfl
  refine ⟨⟨graph.order, traverses, fun _ again => again.unique traverses⟩, traverses,
    ?_, fun _ => declares.orders, ?_⟩
  · constructor
    · rintro ⟨order, ordered⟩ id cycle
      exact acyclic_of_order_ok ordered id (declares.transGen_iff.mpr cycle)
    · intro acyclic
      exact order_isOk_of_acyclic fun name cycle =>
        acyclic name (declares.transGen_iff.mp cycle)
  · intro fault fails
    obtain ⟨name, isCyclic, cycle⟩ := cycle_of_order_error fails
    exact ⟨name, isCyclic, declares.transGen_iff.mp cycle⟩

/-- A name declared twice waits for all that either declaration lists; one more dependency
closes a cycle. -/
theorem order_of_built_joined :
    let table := [("b", ["a"]), ("d", []), ("b", ["c", "a"])]
    let graph := ((ofTable [("b", ["a"])]).addNode "d").add ⟨"b", ["c", "a"]⟩
    graph.Built table ∧
      graph.order = .ok ["a", "c", "b", "d"] ∧
        Orders table ["a", "c", "b", "d"] ∧
          ¬ Dependency.Acyclic (table ++ [("c", ["b"])]) := by
  intro table graph
  have built : graph.Built table := .add (.addNode (.ofTable _) "d") ⟨"b", ["c", "a"]⟩
  have ordered : graph.order = .ok ["a", "c", "b", "d"] := by
    decide +kernel
  have closed :
      (graph.add ⟨"c", ["b"]⟩).order = .error (.cyclicDependency "b") := by
    decide +kernel
  refine ⟨built, ordered, (order_of_built built).2.2.2.1 _ ordered, ?_⟩
  intro acyclic
  obtain ⟨order, isOk⟩ := (order_of_built (.add built ⟨"c", ["b"]⟩)).2.2.1.mpr acyclic
  rw [closed] at isOk
  cases isOk

end DependencyGraph

end Runbook
