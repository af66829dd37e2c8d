import Runbook.Fault

namespace Runbook

/-!
# Dependency graphs

Names and what each depends on.  `order` lists every name after the names it
depends on, or names one that lies on a cycle; `layers` puts each name as early
as its dependencies allow.  Names are taken in alphabetical order and the
dependencies of a name in the order of their declaration, so both answers are
fixed by the graph.
-/

/-- A name with the names it depends on, each once. -/
structure Dependency where
  name : String
  dependsOn : List String
  deriving DecidableEq, Repr

/-- Add to a list what it does not hold yet. -/
def addNew (names : List String) (more : List String) : List String :=
  more.foldl (fun names name => if name ∈ names then names else names ++ [name]) names

namespace Dependency

/-- The dependency of a name on a list that may repeat names. -/
def of (name : String) (names : List String) : Dependency := ⟨name, addNew [] names⟩

end Dependency

/-- Dependencies in the order of their names, one for a name. -/
structure DependencyGraph where
  nodes : List Dependency
  deriving DecidableEq, Repr

namespace DependencyGraph

/-- The graph without names. -/
def empty : DependencyGraph := ⟨[]⟩

/-- Put a dependency at its place; the dependencies of a name that is there
already are joined. -/
def insert (dependency : Dependency) : List Dependency → List Dependency
  | [] => [dependency]
  | node :: rest =>
      if dependency.name = node.name then
        { node with dependsOn := addNew node.dependsOn dependency.dependsOn } :: rest
      else if dependency.name < node.name then
        dependency :: node :: rest
      else
        node :: insert dependency rest

/-- Add a dependency. -/
def add (graph : DependencyGraph) (dependency : Dependency) : DependencyGraph :=
  ⟨insert dependency graph.nodes⟩

/-- Add a name that depends on nothing, unless it is there. -/
def addNode (graph : DependencyGraph) (name : String) : DependencyGraph :=
  graph.add ⟨name, []⟩

/-- The graph of a table of dependencies. -/
def ofTable (table : List (String × List String)) : DependencyGraph :=
  table.foldl (fun graph entry => graph.add (.of entry.1 entry.2)) empty

/-- What is declared for a name. -/
def get? (graph : DependencyGraph) (name : String) : Option Dependency :=
  graph.nodes.find? (·.name == name)

/-- What a name depends on; a name without a declaration depends on nothing. -/
def dependsOn (graph : DependencyGraph) (name : String) : List String :=
  match graph.get? name with
  | some node => node.dependsOn
  | none => []

/-- The declared names. -/
def names (graph : DependencyGraph) : List String := graph.nodes.map (·.name)

/-- Every name, declared or only depended on. -/
def allNames (graph : DependencyGraph) : List String :=
  graph.nodes.flatMap fun node => node.name :: node.dependsOn

/-- The number of declared names. -/
def size (graph : DependencyGraph) : Nat := graph.nodes.length

/-- Visit a name: first what it depends on, then the name itself.  `path` holds
the names whose visit is under way, `done` the finished ones in order.  A path
repeats no name, so the number of names is fuel enough. -/
def visit (graph : DependencyGraph) : (fuel : Nat) → (path done : List String) →
    String → Except Fault (List String)
  | 0, _, _, name => .error (.cyclicDependency name)
  | fuel + 1, path, done, name =>
      if name ∈ done then .ok done
      else if name ∈ path then .error (.cyclicDependency name)
      else do
        let done ← (graph.dependsOn name).foldlM (visit graph fuel (name :: path)) done
        return done ++ [name]

/-- Every name after the names it depends on, or a name on a cycle. -/
def order (graph : DependencyGraph) : Except Fault (List String) :=
  graph.names.foldlM (visit graph (graph.allNames.length + 1) []) []

/-- The level of a name, given the levels of the names before it in the order:
one above the highest of the names it depends on. -/
def levelOf (graph : DependencyGraph) (levels : List (String × Nat)) (name : String) : Nat :=
  (graph.dependsOn name).foldl
    (fun level dependency =>
      match levels.find? (·.1 == dependency) with
      | some entry => max level (entry.2 + 1)
      | none => level) 0

/-- The levels of names in the given order. -/
def levels (graph : DependencyGraph) (order : List String) : List (String × Nat) :=
  order.foldl (fun levels name => levels ++ [(name, levelOf graph levels name)]) []

/-- Put a name at its place in the alphabet. -/
def insertName (name : String) : List String → List String
  | [] => [name]
  | other :: rest => if name ≤ other then name :: other :: rest else other :: insertName name rest

/-- Names in alphabetical order. -/
def sortNames (names : List String) : List String := names.foldr insertName []

/-- The names of each level in alphabetical order, from level zero up. -/
def layersOf (levels : List (String × Nat)) : List (List String) :=
  let height := levels.foldl (fun height entry => max height (entry.2 + 1)) 0
  (List.range height).map fun level =>
    sortNames ((levels.filter (·.2 = level)).map (·.1))

/-- The layers of the graph: the names of one layer do not depend on each
other. -/
def layers (graph : DependencyGraph) : Except Fault (List (List String)) := do
  return layersOf (graph.levels (← graph.order))

end DependencyGraph

end Runbook
