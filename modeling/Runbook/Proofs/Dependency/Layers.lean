import Mathlib.Data.Fintype.Pigeonhole
import Mathlib.Data.List.Sort
import Mathlib.Order.Bounds.Basic
import Runbook.Proofs.Dependency.Traversal

namespace Runbook

/-!
# Layers

The level of a name is found in one pass along the order of the graph: everything that the
name depends on has its level by then, so the level is the length of the longest chain of
dependencies below the name.  All else about layers follows from that.  A name on a level
has a chain below it that meets every lower level, so no layer is empty, and the names of
such a chain depend on one another, so no two of them can share a layer, however the names
are laid out.
-/

namespace DependencyGraph

/-- The lengths of the chains of dependencies below a name. -/
def chainLengths (graph : DependencyGraph) (name : String) : Set Nat :=
  {length | ∃ below : List String,
    (name :: below).IsChain graph.Edge ∧ below.length = length}

variable {graph : DependencyGraph} {order : List String}

/-- A chain below a dependency is a chain below the name, one longer. -/
theorem succ_mem_chainLengths
    {name dependency : String}
    {length : Nat}
    (edge : graph.Edge name dependency)
    (isLength : length ∈ graph.chainLengths dependency) :
    length + 1 ∈ graph.chainLengths name := by
  obtain ⟨below, isChain, rfl⟩ := isLength
  exact ⟨dependency :: below, List.isChain_cons_cons.mpr ⟨edge, isChain⟩, rfl⟩

/-- A chain below a name that is not empty is one below a dependency, one longer. -/
theorem exists_edge_of_succ_mem_chainLengths
    {name : String}
    {length : Nat}
    (isLength : length + 1 ∈ graph.chainLengths name) :
    ∃ dependency, graph.Edge name dependency ∧ length ∈ graph.chainLengths dependency := by
  obtain ⟨below, isChain, isSucc⟩ := isLength
  cases below with
  | nil =>
      cases isSucc
  | cons dependency rest =>
      obtain ⟨edge, isRest⟩ := List.isChain_cons_cons.mp isChain
      exact ⟨dependency, edge, rest, isRest, Nat.succ.inj isSucc⟩

/-- Below a name there is a longer chain than below what it depends on through others. -/
theorem exists_longer_of_transGen
    {name other : String}
    {length : Nat}
    (path : Relation.TransGen graph.Edge name other)
    (isLength : length ∈ graph.chainLengths other) :
    ∃ longer ∈ graph.chainLengths name, length < longer := by
  induction path using Relation.TransGen.head_induction_on with
  | single edge =>
      exact ⟨length + 1, succ_mem_chainLengths edge isLength, Nat.lt_succ_self _⟩
  | head edge _ inductionHypothesis =>
      obtain ⟨longer, isLonger, isMore⟩ := inductionHypothesis
      exact ⟨longer + 1, succ_mem_chainLengths edge isLonger, Nat.lt_succ_of_lt isMore⟩

section Heights

variable {α : Type} {measure : α → Nat} {items : List α} {start bound : Nat}

/-- What lies above a bound after a fold by maximum was above it before, or some item is. -/
theorem lt_foldl_max_iff :
    bound < items.foldl (fun height item => max height (measure item)) start ↔
      bound < start ∨ ∃ item ∈ items, bound < measure item := by
  induction items generalizing start with
  | nil =>
      simp
  | cons item rest inductionHypothesis =>
      rw [List.foldl_cons, inductionHypothesis, lt_max_iff, or_assoc]
      simp

end Heights

/-- One above the level of a name in a list of levels, and nothing for a name without one. -/
def levelAbove (levels : List (String × Nat)) (dependency : String) : Nat :=
  match levels.find? (·.1 == dependency) with
  | some entry => entry.2 + 1
  | none => 0

/-- The level of a name is the maximum over what it depends on. -/
theorem levelOf_eq_foldl_max
    (graph : DependencyGraph)
    (levels : List (String × Nat))
    (name : String) :
    graph.levelOf levels name =
      (graph.dependsOn name).foldl
        (fun level dependency => max level (levelAbove levels dependency)) 0 := by
  unfold levelOf
  congr 1
  funext level dependency
  unfold levelAbove
  cases levels.find? (·.1 == dependency) with
  | none =>
      exact (Nat.max_zero level).symm
  | some entry =>
      rfl

/-- Each name of a list of levels with the length of the longest chain below it. -/
def Measured (graph : DependencyGraph) (levels : List (String × Nat)) : Prop :=
  ∀ entry ∈ levels, IsGreatest (graph.chainLengths entry.1) entry.2

/-- A name with a measured level has one above it that is above the longest chain. -/
theorem exists_levelAbove_eq_succ
    {levels : List (String × Nat)}
    (measured : graph.Measured levels)
    {name : String}
    (isListed : name ∈ levels.map (·.1)) :
    ∃ level, levelAbove levels name = level + 1 ∧
      IsGreatest (graph.chainLengths name) level := by
  unfold levelAbove
  cases found : levels.find? (·.1 == name) with
  | none =>
      obtain ⟨entry, isEntry, isName⟩ := List.mem_map.mp isListed
      exact absurd isName (by simpa using List.find?_eq_none.mp found entry isEntry)
  | some entry =>
      have isName : entry.1 = name := by
        simpa using List.find?_some found
      exact ⟨entry.2, rfl, isName ▸ measured entry (List.mem_of_find?_eq_some found)⟩

/-- The level of a name is the length of the longest chain below it, if all that it depends
on has a measured level. -/
theorem isGreatest_levelOf
    {levels : List (String × Nat)}
    (measured : graph.Measured levels)
    {name : String}
    (follows : ∀ dependency, graph.Edge name dependency → dependency ∈ levels.map (·.1)) :
    IsGreatest (graph.chainLengths name) (graph.levelOf levels name) := by
  rw [levelOf_eq_foldl_max]
  constructor
  · -- The level is zero, or some dependency is right below it.
    generalize isLevel :
      (graph.dependsOn name).foldl
        (fun level dependency => max level (levelAbove levels dependency)) 0 = level
    cases level with
    | zero =>
        exact ⟨[], List.isChain_singleton _, rfl⟩
    | succ level =>
        have isReached := isLevel.symm.le
        rw [Nat.succ_le_iff, lt_foldl_max_iff] at isReached
        obtain ⟨dependency, edge, isHigh⟩ := isReached.resolve_left (Nat.not_lt_zero _)
        have notHigher : levelAbove levels dependency ≤ level + 1 := by
          rw [← isLevel]
          by_contra isHigher
          exact lt_irrefl _
            (lt_foldl_max_iff.mpr (Or.inr ⟨dependency, edge, not_le.mp isHigher⟩))
        obtain ⟨below, isAbove, isGreatest⟩ :=
          exists_levelAbove_eq_succ measured (follows dependency edge)
        have isBelow : below = level := by
          omega
        exact succ_mem_chainLengths edge (isBelow ▸ isGreatest.1)
  · intro length isLength
    cases length with
    | zero =>
        exact Nat.zero_le _
    | succ length =>
        obtain ⟨dependency, edge, isRest⟩ := exists_edge_of_succ_mem_chainLengths isLength
        obtain ⟨below, isAbove, isGreatest⟩ :=
          exists_levelAbove_eq_succ measured (follows dependency edge)
        have notLonger : length ≤ below := isGreatest.2 isRest
        exact lt_foldl_max_iff.mpr (Or.inr ⟨dependency, edge, by omega⟩)

theorem levels_concat
    (graph : DependencyGraph)
    (order : List String)
    (name : String) :
    graph.levels (order ++ [name]) =
      graph.levels order ++ [(name, graph.levelOf (graph.levels order) name)] := by
  simp [levels]

/-- Every name of the order has a level, in the same order. -/
theorem map_fst_levels
    (graph : DependencyGraph)
    (order : List String) :
    (graph.levels order).map (·.1) = order := by
  induction order using List.reverseRecOn with
  | nil =>
      rfl
  | append_singleton rest name inductionHypothesis =>
      rw [levels_concat, List.map_append, inductionHypothesis]
      rfl

/-- What stands in front of a sorted list is sorted, and the last name follows all that it
depends on. -/
theorem Sorted.of_concat
    {done : List String}
    {name : String}
    (sorted : graph.Sorted (done ++ [name])) :
    graph.Sorted done ∧ ∀ dependency, graph.Edge name dependency → dependency ∈ done := by
  constructor
  · intro earlier other later isSplit
    exact sorted earlier other (later ++ [name]) (by rw [isSplit]; simp)
  · exact sorted done name [] rfl

/-- Along a sorted list every level is measured. -/
theorem measured_levels
    (sorted : graph.Sorted order) :
    graph.Measured (graph.levels order) := by
  induction order using List.reverseRecOn with
  | nil =>
      intro entry isEntry
      simp [levels] at isEntry
  | append_singleton rest name inductionHypothesis =>
      obtain ⟨sortedRest, follows⟩ := sorted.of_concat
      have measured := inductionHypothesis sortedRest
      intro entry isEntry
      rw [levels_concat] at isEntry
      rcases List.mem_append.mp isEntry with isEarlier | isLast
      · exact measured entry isEarlier
      · rw [List.mem_singleton.mp isLast]
        refine isGreatest_levelOf measured fun dependency edge => ?_
        rw [map_fst_levels]
        exact follows dependency edge

/-- Sorting names is the library's insertion sort. -/
theorem sortNames_eq_insertionSort
    (names : List String) :
    sortNames names = names.insertionSort (· ≤ ·) := by
  have sameInsert :
      ∀ (name : String) (sorted : List String),
        insertName name sorted = sorted.orderedInsert (· ≤ ·) name := by
    intro name sorted
    induction sorted with
    | nil =>
        rfl
    | cons other rest inductionHypothesis =>
        rw [insertName, List.orderedInsert_cons, inductionHypothesis]
  induction names with
  | nil =>
      rfl
  | cons name rest inductionHypothesis =>
      rw [List.insertionSort_cons, ← inductionHypothesis, ← sameInsert]
      rfl

theorem perm_sortNames
    (names : List String) :
    (sortNames names).Perm names :=
  sortNames_eq_insertionSort names ▸ List.perm_insertionSort _ names

/-- Names of which none comes twice are strictly sorted. -/
theorem pairwise_sortNames
    {names : List String}
    (nodup : names.Nodup) :
    (sortNames names).Pairwise (· < ·) := by
  have sorted : (sortNames names).Pairwise (· ≤ ·) :=
    sortNames_eq_insertionSort names ▸ List.pairwise_insertionSort _ names
  have distinct : (sortNames names).Nodup := (perm_sortNames names).nodup_iff.mpr nodup
  exact sorted.imp₂ (fun _ _ => lt_of_le_of_ne) distinct

/-- The number of layers: one above the highest level. -/
def height (levels : List (String × Nat)) : Nat :=
  levels.foldl (fun height entry => max height (entry.2 + 1)) 0

theorem lt_height_iff
    {levels : List (String × Nat)}
    {level : Nat} :
    level < height levels ↔ ∃ entry ∈ levels, level ≤ entry.2 := by
  rw [height, lt_foldl_max_iff]
  simp only [Nat.not_lt_zero, false_or, Nat.lt_succ_iff]

/-- The names of one level in alphabetical order. -/
def layerAt (levels : List (String × Nat)) (level : Nat) : List String :=
  sortNames ((levels.filter (·.2 = level)).map (·.1))

theorem layersOf_eq
    (levels : List (String × Nat)) :
    layersOf levels = (List.range (height levels)).map (layerAt levels) :=
  rfl

theorem mem_layerAt
    {levels : List (String × Nat)}
    {level : Nat}
    {name : String} :
    name ∈ layerAt levels level ↔ (name, level) ∈ levels := by
  rw [layerAt, (perm_sortNames _).mem_iff]
  simp

theorem getElem?_layersOf
    {levels : List (String × Nat)}
    {index : Nat}
    {layer : List String} :
    (layersOf levels)[index]? = some layer ↔
      index < height levels ∧ layerAt levels index = layer := by
  rw [layersOf_eq, List.getElem?_map]
  by_cases isBelow : index < height levels
  · rw [List.getElem?_range isBelow]
    simp [isBelow]
  · rw [List.getElem?_eq_none (by simpa using isBelow)]
    simp [isBelow]

/-- On every level up to that of a name there is a name. -/
theorem exists_mem_levels_of_le
    {levels : List (String × Nat)}
    (measured : graph.Measured levels)
    (closed : ∀ name dependency,
      graph.Edge name dependency → dependency ∈ levels.map (·.1))
    {name : String}
    {level lower : Nat}
    (isLevel : (name, level) ∈ levels)
    (isLower : lower ≤ level) :
    ∃ other, (other, lower) ∈ levels := by
  induction level generalizing name with
  | zero =>
      exact ⟨name, Nat.le_zero.mp isLower ▸ isLevel⟩
  | succ level inductionHypothesis =>
      rcases Nat.le_succ_iff.mp isLower with isBelow | rfl
      · -- The next name of a longest chain stands one level lower.
        have isGreatest := measured _ isLevel
        obtain ⟨dependency, edge, isRest⟩ :=
          exists_edge_of_succ_mem_chainLengths isGreatest.1
        obtain ⟨⟨_, depth⟩, isEntry, rfl⟩ := List.mem_map.mp (closed name dependency edge)
        have isDeepest := measured _ isEntry
        have notHigher : depth + 1 ≤ level + 1 :=
          isGreatest.2 (succ_mem_chainLengths edge isDeepest.1)
        have notLower : level ≤ depth := isDeepest.2 isRest
        have sameLevel : depth = level := by
          omega
        exact inductionHypothesis (sameLevel ▸ isEntry) isBelow
      · exact ⟨name, isLevel⟩

/-- The names of the layers are those of the levels, each once. -/
theorem flatten_layersOf
    {levels : List (String × Nat)}
    (nodup : (levels.map (·.1)).Nodup) :
    (layersOf levels).flatten.Nodup ∧
      (layersOf levels).flatten.Perm (levels.map (·.1)) := by
  have sameLevel :
      ∀ {name : String} {first second : Nat},
        (name, first) ∈ levels → (name, second) ∈ levels → first = second :=
    fun isFirst isSecond =>
      congrArg Prod.snd (List.inj_on_of_nodup_map nodup isFirst isSecond rfl)
  have nodupLayer : ∀ level, (layerAt levels level).Nodup := by
    intro level
    refine (perm_sortNames _).nodup_iff.mpr ?_
    exact (List.filter_sublist.map _).nodup nodup
  have nodupFlatten : (layersOf levels).flatten.Nodup := by
    rw [List.nodup_flatten, layersOf_eq, List.pairwise_map]
    constructor
    · rintro layer isLayer
      obtain ⟨level, _, rfl⟩ := List.mem_map.mp isLayer
      exact nodupLayer level
    · refine List.pairwise_lt_range.imp fun {first second} isBefore name inFirst inSecond => ?_
      exact isBefore.ne (sameLevel (mem_layerAt.mp inFirst) (mem_layerAt.mp inSecond))
  refine ⟨nodupFlatten, (List.perm_ext_iff_of_nodup nodupFlatten nodup).mpr fun name => ?_⟩
  rw [List.mem_flatten, layersOf_eq]
  constructor
  · rintro ⟨layer, isLayer, inLayer⟩
    obtain ⟨level, _, rfl⟩ := List.mem_map.mp isLayer
    exact List.mem_map.mpr ⟨(name, level), mem_layerAt.mp inLayer, rfl⟩
  · intro isListed
    obtain ⟨⟨_, level⟩, isEntry, rfl⟩ := List.mem_map.mp isListed
    exact ⟨layerAt levels level,
      List.mem_map.mpr
        ⟨level, List.mem_range.mpr (lt_height_iff.mpr ⟨_, isEntry, le_rfl⟩), rfl⟩,
      mem_layerAt.mpr isEntry⟩

/-- The names of a chain depend on the later ones of it. -/
theorem pairwise_transGen_of_isChain
    {chain : List String}
    (isChain : chain.IsChain graph.Edge) :
    chain.Pairwise (Relation.TransGen graph.Edge) :=
  have isPath : chain.IsChain (Relation.TransGen graph.Edge) :=
    isChain.imp fun _ _ => Relation.TransGen.single
  isPath.pairwise

/-- The names of a chain lie in different groups, if no group holds two names of which one
depends on the other. -/
theorem length_le_of_isChain
    {chain : List String}
    (isChain : chain.IsChain graph.Edge)
    {groups : List (List String)}
    (covered : ∀ name ∈ chain, ∃ group ∈ groups, name ∈ group)
    (apart : ∀ group ∈ groups, ∀ first ∈ group, ∀ second ∈ group,
      ¬ Relation.TransGen graph.Edge first second) :
    chain.length ≤ groups.length := by
  have placed :
      ∀ position : Fin chain.length, ∃ place : Fin groups.length,
        chain[position] ∈ groups[place] := by
    intro position
    obtain ⟨group, isGroup, inGroup⟩ := covered _ (List.getElem_mem position.isLt)
    obtain ⟨place, isPlace, rfl⟩ := List.mem_iff_getElem.mp isGroup
    exact ⟨⟨place, isPlace⟩, inGroup⟩
  choose place inPlace using placed
  by_contra isLonger
  obtain ⟨first, second, different, samePlace⟩ :=
    Fintype.exists_ne_map_eq_of_card_lt place (by simpa using isLonger)
  have depends := List.pairwise_iff_getElem.mp (pairwise_transGen_of_isChain isChain)
  have sameGroup : groups[place first] = groups[place second] :=
    congrArg (fun place : Fin groups.length => groups[place]) samePlace
  have inSame : chain[second] ∈ groups[place first] := sameGroup ▸ inPlace second
  rcases Nat.lt_or_gt_of_ne (Fin.val_ne_of_ne different) with isBefore | isBefore
  · exact apart _ (List.getElem_mem (place first).isLt) _ (inPlace first) _ inSame
      (depends first second first.isLt second.isLt isBefore)
  · exact apart _ (List.getElem_mem (place first).isLt) _ inSame _ (inPlace first)
      (depends second first second.isLt first.isLt isBefore)

/-- Names laid out in layers: each layer holds the names with a longest chain of the same
length below them, and there cannot be fewer groups of names that are independent. -/
structure Layering (graph : DependencyGraph) (order : List String)
    (layers : List (List String)) : Prop where
  nonempty :
    ∀ layer ∈ layers, layer ≠ []
  sorted :
    ∀ layer ∈ layers, layer.Pairwise (· < ·)
  nodup :
    layers.flatten.Nodup
  partitions :
    layers.flatten.Perm order
  longest :
    ∀ (index : Nat) (layer : List String), layers[index]? = some layer →
      ∀ name ∈ layer, IsGreatest (graph.chainLengths name) index
  earlier :
    ∀ (index : Nat) (layer : List String), layers[index]? = some layer →
      ∀ name ∈ layer, ∀ dependency, graph.Edge name dependency →
        ∃ (before : Nat) (other : List String),
          before < index ∧ layers[before]? = some other ∧ dependency ∈ other
  apart :
    ∀ layer ∈ layers, ∀ first ∈ layer, ∀ second ∈ layer,
      ¬ Relation.TransGen graph.Edge first second
  fewest :
    ∀ groups : List (List String),
      (∀ name ∈ order, ∃ group ∈ groups, name ∈ group) →
      (∀ group ∈ groups, ∀ first ∈ group, ∀ second ∈ group,
        ¬ Relation.TransGen graph.Edge first second) →
      layers.length ≤ groups.length

/-- The layers of measured levels lay out their names. -/
theorem layering_layersOf
    {levels : List (String × Nat)}
    (measured : graph.Measured levels)
    (nodup : (levels.map (·.1)).Nodup)
    (closed : ∀ name dependency,
      graph.Edge name dependency → dependency ∈ levels.map (·.1)) :
    graph.Layering (levels.map (·.1)) (layersOf levels) := by
  have isLayer :
      ∀ {layer : List String}, layer ∈ layersOf levels →
        ∃ index, index < height levels ∧ layerAt levels index = layer := by
    intro layer isLayer
    obtain ⟨index, isIndex⟩ := List.mem_iff_getElem?.mp isLayer
    exact ⟨index, getElem?_layersOf.mp isIndex⟩
  have longest :
      ∀ {name : String} {index : Nat}, name ∈ layerAt levels index →
        IsGreatest (graph.chainLengths name) index :=
    fun inLayer => measured _ (mem_layerAt.mp inLayer)
  obtain ⟨nodupFlatten, partitions⟩ := flatten_layersOf nodup
  refine ⟨?_, ?_, nodupFlatten, partitions, ?_, ?_, ?_, ?_⟩
  · intro layer inLayers
    obtain ⟨index, isBelow, rfl⟩ := isLayer inLayers
    obtain ⟨entry, isEntry, notHigher⟩ := lt_height_iff.mp isBelow
    obtain ⟨name, isName⟩ := exists_mem_levels_of_le measured closed isEntry notHigher
    exact List.ne_nil_of_mem (mem_layerAt.mpr isName)
  · intro layer inLayers
    obtain ⟨index, _, rfl⟩ := isLayer inLayers
    exact pairwise_sortNames ((List.filter_sublist.map _).nodup nodup)
  · intro index layer isIndex name inLayer
    obtain ⟨_, rfl⟩ := getElem?_layersOf.mp isIndex
    exact longest inLayer
  · intro index layer isIndex name inLayer dependency edge
    obtain ⟨isBelow, rfl⟩ := getElem?_layersOf.mp isIndex
    obtain ⟨⟨_, depth⟩, isEntry, rfl⟩ := List.mem_map.mp (closed name dependency edge)
    have isBefore : depth + 1 ≤ index :=
      (longest inLayer).2 (succ_mem_chainLengths edge (measured _ isEntry).1)
    exact ⟨depth, layerAt levels depth, isBefore,
      getElem?_layersOf.mpr ⟨Nat.lt_trans isBefore isBelow, rfl⟩, mem_layerAt.mpr isEntry⟩
  · intro layer inLayers first isFirst second isSecond path
    obtain ⟨index, _, rfl⟩ := isLayer inLayers
    obtain ⟨longer, isLonger, isMore⟩ := exists_longer_of_transGen path (longest isSecond).1
    exact absurd ((longest isFirst).2 isLonger) (Nat.not_le.mpr isMore)
  · intro groups covered apart
    have isHeight : (layersOf levels).length = height levels := by
      simp [layersOf_eq]
    rw [isHeight]
    cases top : height levels with
    | zero =>
        exact Nat.zero_le _
    | succ level =>
        have isReached : level < height levels := top.symm.le
        obtain ⟨⟨name, depth⟩, isEntry, isDeep⟩ := lt_height_iff.mp isReached
        obtain ⟨below, isChain, isLength⟩ := (measured _ isEntry).1
        have isListed : ∀ other ∈ name :: below, other ∈ levels.map (·.1) := by
          intro other isOther
          rcases List.mem_cons.mp isOther with rfl | isBelow
          · exact List.mem_map.mpr ⟨_, isEntry, rfl⟩
          · have path := (List.pairwise_cons.mp (pairwise_transGen_of_isChain isChain)).1
            obtain ⟨above, _, edge⟩ := Relation.TransGen.tail'_iff.mp (path other isBelow)
            exact closed above other edge
        have enough : (name :: below).length ≤ groups.length :=
          length_le_of_isChain isChain (fun other isOther => covered other (isListed other isOther))
            apart
        rw [List.length_cons, isLength] at enough
        exact (Nat.succ_le_succ isDeep).trans enough

/-- What a name depends on is in the order of the graph. -/
theorem mem_order_of_edge
    (ordered : graph.order = .ok order)
    {name dependency : String}
    (edge : graph.Edge name dependency) :
    dependency ∈ order := by
  have isBefore := idxOf_lt_of_order_ok ordered edge
  exact List.idxOf_lt_length_iff.mp (isBefore.trans_le List.idxOf_le_length)

/--
The layers of a graph fail as its order does.  Otherwise they lay out the names of the order:
the index of a name's layer is the length of the longest chain of dependencies below it, so
what a name depends on stands in an earlier layer, and no names of one layer depend on one
another.  As many groups are needed whenever names that depend on one another are kept apart,
so in particular whenever each name stands behind the groups of its dependencies.
-/
theorem layers_of_order
    (graph : DependencyGraph) :
    (∀ fault, graph.layers = .error fault ↔ graph.order = .error fault) ∧
      ∀ order, graph.order = .ok order →
        ∃ layers, graph.layers = .ok layers ∧ graph.Layering order layers := by
  constructor
  · intro fault
    unfold layers
    cases graph.order with
    | error other =>
        constructor
        · intro fails
          cases fails
          rfl
        · intro fails
          cases fails
          rfl
    | ok order =>
        exact ⟨nofun, nofun⟩
  · intro order ordered
    refine ⟨layersOf (graph.levels order), by rw [layers, ordered]; rfl, ?_⟩
    obtain ⟨_, sorted⟩ := sorted_of_order_ok ordered
    have nodup : order.Nodup := (order_eq_iff.mp ordered).adds.nodup List.nodup_nil
    have layering :=
      layering_layersOf (measured_levels sorted)
        (by rw [map_fst_levels]; exact nodup)
        (by rw [map_fst_levels]; exact fun _ _ => mem_order_of_edge ordered)
    rwa [map_fst_levels] at layering

/-- Two ways of different length lead from one name down to another; the longer one counts. -/
theorem layers_of_order_diamond :
    let graph := (ofTable [("b", ["a"]), ("c", ["b"]), ("d", ["a", "c"])]).addNode "e"
    graph.order = .ok ["a", "b", "c", "d", "e"] ∧
      graph.layers = .ok [["a", "e"], ["b"], ["c"], ["d"]] ∧
        graph.Layering ["a", "b", "c", "d", "e"] [["a", "e"], ["b"], ["c"], ["d"]] := by
  intro graph
  have ordered : graph.order = .ok ["a", "b", "c", "d", "e"] := by
    decide +kernel
  have layered : graph.layers = .ok [["a", "e"], ["b"], ["c"], ["d"]] := by
    decide +kernel
  obtain ⟨layers, isLayers, layering⟩ := (layers_of_order graph).2 _ ordered
  rw [layered] at isLayers
  cases isLayers
  exact ⟨ordered, layered, layering⟩

end DependencyGraph

end Runbook
