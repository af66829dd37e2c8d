import Mathlib.Data.Fintype.EquivFin
import Mathlib.Data.String.Basic
import Mathlib.Logic.Relation
import Mathlib.Order.Basic
import Runbook.Batch.Schedule

namespace Runbook

/-!
# Tables of dependencies and their graphs

A table may name an id several times and repeat a dependency.  The graph of the table
keeps one node for an id, in the order of the ids, and joins what is declared for it;
this module proves that nothing is lost and nothing added on the way: the graph has an
edge exactly where some entry of the table lists the dependency.  Along a table without
cycles one may argue by induction: what is so of a call whenever it is so of all calls
listed for it, is so of every call.
-/

namespace Dependency

/-- Some entry of a table lists a dependency for an id. -/
def Listed
    (table : List (String × List String))
    (id dependency : String) : Prop :=
  ∃ names, (id, names) ∈ table ∧ dependency ∈ names

/-- No id of a table depends on itself, directly or through others. -/
def Acyclic (table : List (String × List String)) : Prop :=
  ∀ id, ¬ Relation.TransGen (Listed table) id id

/-- Nothing leads to itself if every step leads to a lower rank. -/
theorem not_transGen_self_of_rank
    {relation : String → String → Prop}
    (rank : String → Nat)
    (lower : ∀ id dependency, relation id dependency → rank dependency < rank id)
    (id : String) :
    ¬ Relation.TransGen relation id id := by
  intro cycle
  have below :
      ∀ last, Relation.TransGen relation id last → rank last < rank id := by
    intro last path
    induction path with
    | single step =>
        exact lower _ _ step
    | tail _ step inductionHypothesis =>
        exact (lower _ _ step).trans inductionHypothesis
  exact Nat.lt_irrefl _ (below id cycle)

/-- An empty table lists nothing. -/
@[simp] theorem not_listed_nil
    (id dependency : String) :
    ¬ Listed [] id dependency := by
  rintro ⟨names, member, _⟩
  simp at member

/-- An entry in front lists its own dependencies for its own id. -/
theorem listed_cons
    {entry : String × List String}
    {table : List (String × List String)}
    {id dependency : String} :
    Listed (entry :: table) id dependency ↔
      (id = entry.1 ∧ dependency ∈ entry.2) ∨
        Listed table id dependency := by
  constructor
  · rintro ⟨names, member, listed⟩
    rcases List.mem_cons.mp member with isEntry | inTable
    · subst isEntry
      exact Or.inl ⟨rfl, listed⟩
    · exact Or.inr ⟨names, inTable, listed⟩
  · rintro (⟨sameId, listed⟩ | ⟨names, member, listed⟩)
    · refine ⟨entry.2, ?_, listed⟩
      rw [sameId]
      exact List.mem_cons_self
    · exact ⟨names, List.mem_cons_of_mem _ member, listed⟩

variable {table : List (String × List String)}

/-- A table is without cycles if what is listed for an id has a lower rank. -/
theorem acyclic_of_rank
    (rank : String → Nat)
    (lower : ∀ id dependency, Listed table id dependency → rank dependency < rank id) :
    Acyclic table :=
  not_transGen_self_of_rank rank lower

/-- What passes from the calls listed for a call to the call itself is so of all calls. -/
theorem Acyclic.forall_calls
    (acyclic : Acyclic table)
    {calls : List Call}
    {motive : Nat → Prop}
    (passes :
      ∀ (index : Nat) (call : Call),
        calls[index]? = some call →
        (∀ (other : Nat) (required : Call),
          calls[other]? = some required →
          Listed table call.id required.id →
          motive other) →
        motive index)
    {index : Nat}
    {call : Call}
    (given : calls[index]? = some call) :
    motive index := by
  let before (first second : Fin calls.length) : Prop :=
    Relation.TransGen (Listed table) calls[second].id calls[first].id
  have transitive : IsTrans (Fin calls.length) before :=
    ⟨fun _ _ _ first second => second.trans first⟩
  have irreflexive : Std.Irrefl before :=
    ⟨fun position => acyclic calls[position].id⟩
  have wellFounded : WellFounded before :=
    Finite.wellFounded_of_trans_of_irrefl before
  have holdsAt : ∀ position : Fin calls.length, motive position := by
    intro position
    induction position using wellFounded.induction with
    | _ position inductionHypothesis =>
        refine passes position calls[position] (List.getElem?_eq_getElem position.isLt) ?_
        intro other required isRequired listed
        obtain ⟨inside, isCall⟩ := List.getElem?_eq_some_iff.mp isRequired
        apply inductionHypothesis ⟨other, inside⟩
        rw [← isCall] at listed
        exact .single listed
  exact holdsAt ⟨index, (List.getElem?_eq_some_iff.mp given).1⟩

end Dependency

/-- Joining keeps what is there and adds what is new, no more. -/
theorem mem_addNew
    {names more : List String}
    {name : String} :
    name ∈ addNew names more ↔ name ∈ names ∨ name ∈ more := by
  induction more generalizing names with
  | nil =>
      simp [addNew]
  | cons head rest inductionHypothesis =>
      have unfolded :
          addNew names (head :: rest) =
            addNew (if head ∈ names then names else names ++ [head]) rest :=
        rfl
      rw [unfolded, inductionHypothesis]
      by_cases present : head ∈ names
      · simp only [present, ↓reduceIte, List.mem_cons]
        constructor
        · rintro (inNames | inRest)
          · exact Or.inl inNames
          · exact Or.inr (Or.inr inRest)
        · rintro (inNames | isHead | inRest)
          · exact Or.inl inNames
          · subst isHead
            exact Or.inl present
          · exact Or.inr inRest
      · simp only [present, ↓reduceIte, List.mem_append, List.mem_cons,
          List.not_mem_nil, or_false]
        exact or_assoc

namespace DependencyGraph

/-- The graph declares that a name depends on another. -/
def Edge (graph : DependencyGraph) (name dependency : String) : Prop :=
  dependency ∈ graph.dependsOn name

/-- No name of a graph depends on itself, directly or through others. -/
def Acyclic (graph : DependencyGraph) : Prop :=
  ∀ name, ¬ Relation.TransGen graph.Edge name name

/-- The nodes are in the order of their names, one for a name. -/
def Ordered (nodes : List Dependency) : Prop :=
  nodes.Pairwise fun first second => first.name < second.name

/-- Only the first node of a name counts. -/
theorem dependsOn_cons
    (node : Dependency)
    (rest : List Dependency)
    (name : String) :
    dependsOn ⟨node :: rest⟩ name =
      if node.name = name then node.dependsOn else dependsOn ⟨rest⟩ name := by
  by_cases same : node.name = name
  · simp [dependsOn, get?, same]
  · simp [dependsOn, get?, same]

/-- A name below all names of a graph has no declaration. -/
theorem dependsOn_eq_nil_of_lt
    {nodes : List Dependency}
    {name : String}
    (below : ∀ node ∈ nodes, name < node.name) :
    dependsOn ⟨nodes⟩ name = [] := by
  induction nodes with
  | nil =>
      rfl
  | cons node rest inductionHypothesis =>
      have different : node.name ≠ name :=
        (below node List.mem_cons_self).ne'
      rw [dependsOn_cons, if_neg different]
      exact inductionHypothesis
        fun other member => below other (List.mem_cons_of_mem _ member)

/-- The nodes after an insertion are those before it and the inserted one, by name. -/
theorem name_of_mem_insert
    {dependency : Dependency}
    {nodes : List Dependency}
    {node : Dependency}
    (member : node ∈ insert dependency nodes) :
    node.name = dependency.name ∨
      ∃ other ∈ nodes, other.name = node.name := by
  induction nodes with
  | nil =>
      rw [insert, List.mem_singleton] at member
      exact Or.inl (by rw [member])
  | cons head rest inductionHypothesis =>
      rw [insert] at member
      split at member
      case isTrue same =>
        rcases List.mem_cons.mp member with isHead | inRest
        · exact Or.inl (by rw [isHead, same])
        · exact Or.inr ⟨node, List.mem_cons_of_mem _ inRest, rfl⟩
      case isFalse different =>
        split at member
        case isTrue before =>
          rcases List.mem_cons.mp member with isNew | isOld
          · exact Or.inl (by rw [isNew])
          · exact Or.inr ⟨node, isOld, rfl⟩
        case isFalse notBefore =>
          rcases List.mem_cons.mp member with isHead | inRest
          · exact Or.inr ⟨head, List.mem_cons_self, by rw [isHead]⟩
          · rcases inductionHypothesis inRest with isNew | ⟨other, inOld, sameName⟩
            · exact Or.inl isNew
            · exact Or.inr ⟨other, List.mem_cons_of_mem _ inOld, sameName⟩

/-- Inserting a dependency keeps the order of the nodes. -/
theorem ordered_insert
    (dependency : Dependency)
    {nodes : List Dependency}
    (ordered : Ordered nodes) :
    Ordered (insert dependency nodes) := by
  induction nodes with
  | nil =>
      exact List.pairwise_singleton _ _
  | cons head rest inductionHypothesis =>
      obtain ⟨headFirst, restOrdered⟩ := List.pairwise_cons.mp ordered
      rw [insert]
      split
      case isTrue same =>
        exact List.pairwise_cons.mpr ⟨headFirst, restOrdered⟩
      case isFalse different =>
        split
        case isTrue before =>
          refine List.pairwise_cons.mpr ⟨?_, ordered⟩
          intro node member
          rcases List.mem_cons.mp member with isHead | inRest
          · rw [isHead]
            exact before
          · exact before.trans (headFirst node inRest)
        case isFalse notBefore =>
          refine List.pairwise_cons.mpr ⟨?_, inductionHypothesis restOrdered⟩
          intro node member
          rcases name_of_mem_insert member with isNew | ⟨other, inOld, sameName⟩
          · rw [isNew]
            exact lt_of_le_of_ne (not_lt.mp notBefore) (Ne.symm different)
          · rw [← sameName]
            exact headFirst other inOld

/-- Inserting a dependency adds its edges and no others. -/
theorem mem_dependsOn_insert
    (dependency : Dependency)
    {nodes : List Dependency}
    (ordered : Ordered nodes)
    (name other : String) :
    other ∈ dependsOn ⟨insert dependency nodes⟩ name ↔
      (name = dependency.name ∧ other ∈ dependency.dependsOn) ∨
        other ∈ dependsOn ⟨nodes⟩ name := by
  induction nodes with
  | nil =>
      rw [insert, dependsOn_cons]
      by_cases same : dependency.name = name
      · simp [same, dependsOn, get?]
      · simp [same, Ne.symm same, dependsOn, get?]
  | cons head rest inductionHypothesis =>
      obtain ⟨headFirst, restOrdered⟩ := List.pairwise_cons.mp ordered
      rw [insert]
      split
      case isTrue same =>
        rw [dependsOn_cons, dependsOn_cons]
        by_cases atHead : head.name = name
        · rw [if_pos atHead, if_pos atHead, mem_addNew]
          simp [same, atHead, or_comm]
        · rw [if_neg atHead, if_neg atHead]
          simp [same, Ne.symm atHead]
      case isFalse different =>
        split
        case isTrue before =>
          rw [dependsOn_cons]
          by_cases atNew : dependency.name = name
          · have undeclared :
                dependsOn ⟨head :: rest⟩ name = [] := by
              apply dependsOn_eq_nil_of_lt
              intro node member
              rw [← atNew]
              rcases List.mem_cons.mp member with isHead | inRest
              · rw [isHead]
                exact before
              · exact before.trans (headFirst node inRest)
            simp [atNew, undeclared]
          · simp [atNew, Ne.symm atNew]
        case isFalse notBefore =>
          rw [dependsOn_cons, dependsOn_cons]
          by_cases atHead : head.name = name
          · have notNew : name ≠ dependency.name := by
              rw [← atHead]
              exact Ne.symm different
            simp [atHead, notNew]
          · rw [if_neg atHead, if_neg atHead]
            exact inductionHypothesis restOrdered

/-- The entries of a table, added to a graph one after the other. -/
theorem foldl_add_table
    (table : List (String × List String))
    {graph : DependencyGraph}
    (ordered : Ordered graph.nodes) :
    let joined :=
      table.foldl (fun graph entry => graph.add (.of entry.1 entry.2)) graph
    Ordered joined.nodes ∧
      ∀ name other, joined.Edge name other ↔
        Dependency.Listed table name other ∨ graph.Edge name other := by
  induction table generalizing graph with
  | nil =>
      exact ⟨ordered, by simp⟩
  | cons entry rest inductionHypothesis =>
      have added :
          Ordered (graph.add (.of entry.1 entry.2)).nodes :=
        ordered_insert _ ordered
      obtain ⟨joinedOrdered, joinedEdge⟩ := inductionHypothesis added
      refine ⟨joinedOrdered, ?_⟩
      intro name other
      have entryEdge :
          (graph.add (.of entry.1 entry.2)).Edge name other ↔
            (name = entry.1 ∧ other ∈ entry.2) ∨ graph.Edge name other := by
        have inserted :=
          mem_dependsOn_insert (.of entry.1 entry.2) ordered name other
        simpa [Edge, add, Dependency.of, mem_addNew] using inserted
      refine (joinedEdge name other).trans ?_
      rw [entryEdge, Dependency.listed_cons]
      tauto

/-- Adding names without dependencies adds no edge. -/
theorem foldl_addNode_calls
    (calls : List Call)
    {graph : DependencyGraph}
    (ordered : Ordered graph.nodes) :
    let joined := calls.foldl (fun graph call => graph.addNode call.id) graph
    Ordered joined.nodes ∧
      ∀ name other, joined.Edge name other ↔ graph.Edge name other := by
  induction calls generalizing graph with
  | nil =>
      exact ⟨ordered, fun _ _ => Iff.rfl⟩
  | cons call rest inductionHypothesis =>
      have added : Ordered (graph.addNode call.id).nodes :=
        ordered_insert _ ordered
      obtain ⟨joinedOrdered, joinedEdge⟩ := inductionHypothesis added
      refine ⟨joinedOrdered, ?_⟩
      intro name other
      refine (joinedEdge name other).trans ?_
      have inserted :=
        mem_dependsOn_insert ⟨call.id, []⟩ ordered name other
      simpa [Edge, addNode, add] using inserted

end DependencyGraph

namespace Schedule

/-- The graph of a batch has exactly the edges that the table lists. -/
theorem edge_graphOf
    (calls : List Call)
    (table : List (String × List String))
    (name other : String) :
    (graphOf calls table).Edge name other ↔
      Dependency.Listed table name other := by
  obtain ⟨tableOrdered, tableEdge⟩ :=
    DependencyGraph.foldl_add_table table
      (show DependencyGraph.Ordered DependencyGraph.empty.nodes from List.Pairwise.nil)
  obtain ⟨_, callsEdge⟩ :=
    DependencyGraph.foldl_addNode_calls calls tableOrdered
  refine (callsEdge name other).trans ((tableEdge name other).trans ?_)
  simp [DependencyGraph.Edge, DependencyGraph.dependsOn,
    DependencyGraph.get?, DependencyGraph.empty]

/-- A table without cycles gives a batch a graph without cycles. -/
theorem acyclic_graphOf
    (calls : List Call)
    {table : List (String × List String)}
    (acyclic : Dependency.Acyclic table) :
    (graphOf calls table).Acyclic := by
  intro name cycle
  have listed :
      ∀ first second, (graphOf calls table).Edge first second →
        Dependency.Listed table first second :=
    fun first second => (edge_graphOf calls table first second).mp
  exact acyclic name (Relation.TransGen.mono listed name name cycle)

end Schedule

end Runbook
