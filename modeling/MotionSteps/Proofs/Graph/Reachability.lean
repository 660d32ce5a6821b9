import MotionSteps.Proofs.Graph.Cycles
import MotionSteps.Proofs.Graph.SinglePath

/-!
# Reachability by positions

The usual way to the nodes that a node leads to searches a directed graph on positions: each node
has its position in the order of the graph, and each connection runs between the positions of its
ends. The positions that the search comes to, in any order, are turned back into nodes and sorted.
`WellFormed.searchedFrom_eq` shows that every search that visits what it can reach, each position
once, arrives at `reachableFrom`. `reachability_of_reachable` adds what `reachableFrom` is, and how
it relates to the walk from the entry.
-/

namespace MotionSteps

/-- A search of a directed graph comes from a start to each position to which a path leads, the
start included, and to each of them once. -/
structure Visits (edges : List (Nat × Nat)) (start : Nat) (visited : List Nat) : Prop where
  nodup : visited.Nodup
  mem_iff : ∀ position, position ∈ visited ↔
    Relation.ReflTransGen (fun source target => (source, target) ∈ edges) start position

namespace Graph

/-- The connections of a graph between the positions of its nodes. -/
def positionEdges (graph : Graph) : List (Nat × Nat) :=
  graph.connections.filterMap fun connection =>
    match graph.nodeIds.idxOf? connection.source, graph.nodeIds.idxOf? connection.target with
    | some source, some target => some (source, target)
    | _, _ => none

/-- The nodes, in the order of the graph, at the positions to which a search comes from the
position of a node. -/
def searchedFrom (graph : Graph) (search : Nat → List Nat) (id : NodeId) : List NodeId :=
  match graph.nodeIds.idxOf? id with
  | some start => graph.sorted ((search start).filterMap fun position => graph.nodeIds[position]?)
  | none => []

variable {graph : Graph}

/-! ## The walk and the search -/

/-- A path along first connections leads to each of its nodes. -/
theorem FirstPath.reflTransGen_of_mem {entry id : NodeId} {path : List NodeId}
    (follows : graph.FirstPath entry path) (member : id ∈ path) :
    Relation.ReflTransGen graph.Leads entry id := by
  induction follows with
  | single entry =>
      obtain rfl := List.mem_singleton.mp member
      exact .refl
  | cons leads _ inductionHypothesis =>
      rcases List.mem_cons.mp member with rfl | later
      · exact .refl
      · exact .head (mem_successors_of_firstSuccessor? leads) (inductionHypothesis later)

/-- A path to a node that the walk misses leaves the walk at a node with several connections:
the only connection of any other node is followed. The induction is on the path. -/
theorem IsFirstWalk.exists_branch {entry id : NodeId} {path : List NodeId}
    (walk : graph.IsFirstWalk entry path) (reaches : Relation.ReflTransGen graph.Leads entry id)
    (missed : id ∉ path) : ∃ other ∈ path, 2 ≤ (graph.outgoing other).length := by
  induction reaches with
  | refl => exact absurd (List.mem_of_mem_head? walk.follows.head?_eq) missed
  | @tail other id _ leads inductionHypothesis =>
      by_cases member : other ∈ path
      · refine ⟨other, member, ?_⟩
        by_contra few
        have narrow : (graph.outgoing other).length ≤ 1 := by omega
        have only : id ∈ (graph.firstSuccessor? other).toList :=
          successors_of_narrow narrow ▸ leads
        exact missed (walk.mem_of_firstSuccessor? member (Option.mem_toList.mp only))
      · exact inductionHypothesis member

namespace WellFormed

/-- What the walk comes to is reachable from its entry. -/
theorem mem_reachableFrom_of_mem_chain (wellFormed : graph.WellFormed) {entry id : NodeId}
    (first : graph.linearize.entry = some entry) (member : id ∈ graph.linearize.chain) :
    id ∈ graph.reachableFrom entry := by
  have live := wellFormed.start_live (List.mem_of_mem_head? (linearize_entry.symm.trans first))
  exact wellFormed.mem_reachableFrom_iff.mpr
    ⟨live, (wellFormed.isFirstWalk_chain first).follows.reflTransGen_of_mem member⟩

/-- If nothing branches off the walk, it comes to all that is reachable from its entry. -/
theorem mem_reachableFrom_iff_mem_chain (wellFormed : graph.WellFormed) {entry : NodeId}
    (first : graph.linearize.entry = some entry)
    (narrow : ∀ id ∈ graph.linearize.chain, (graph.outgoing id).length ≤ 1) (id : NodeId) :
    id ∈ graph.reachableFrom entry ↔ id ∈ graph.linearize.chain := by
  constructor
  · intro reached
    by_contra missed
    obtain ⟨other, member, several⟩ := (wellFormed.isFirstWalk_chain first).exists_branch
      (wellFormed.mem_reachableFrom_iff.mp reached).2 missed
    have few := narrow other member
    omega
  · exact wellFormed.mem_reachableFrom_of_mem_chain first

/-! ## Positions -/

theorem idxOf?_nodeIds_iff (wellFormed : graph.WellFormed) {id : NodeId} {position : Nat} :
    graph.nodeIds.idxOf? id = some position ↔ graph.nodeIds[position]? = some id := by
  rw [List.idxOf?_eq_some_iff, List.getElem?_eq_some_iff]
  constructor
  · rintro ⟨inside, same, -⟩
    exact ⟨inside, same⟩
  · rintro ⟨inside, same⟩
    refine ⟨inside, same, fun earlier before again => ?_⟩
    have position := wellFormed.nodeIds_nodup.getElem_inj_iff.mp (again.trans same.symm)
    omega

/-- No node has two positions. -/
theorem position_unique (wellFormed : graph.WellFormed) {id : NodeId} {first second : Nat}
    (there : graph.nodeIds[first]? = some id) (again : graph.nodeIds[second]? = some id) :
    first = second :=
  Option.some.inj
    ((wellFormed.idxOf?_nodeIds_iff.mpr there).symm.trans (wellFormed.idxOf?_nodeIds_iff.mpr again))

/-- An edge joins two positions exactly when a connection leads from the one node to the other. -/
theorem mem_positionEdges_iff (wellFormed : graph.WellFormed) {source target : Nat} :
    (source, target) ∈ graph.positionEdges ↔
      ∃ first second, graph.nodeIds[source]? = some first ∧
        graph.nodeIds[target]? = some second ∧ graph.Leads first second := by
  simp only [positionEdges, List.mem_filterMap, ← wellFormed.idxOf?_nodeIds_iff, Leads, successors,
    outgoing, List.mem_map, List.mem_filter, beq_iff_eq]
  constructor
  · rintro ⟨connection, listed, joined⟩
    split at joined
    · next first second there further =>
        obtain ⟨rfl, rfl⟩ := Prod.mk.inj (Option.some.inj joined)
        exact ⟨_, _, there, further, connection, ⟨listed, rfl⟩, rfl⟩
    · cases joined
  · rintro ⟨_, _, there, further, connection, ⟨listed, rfl⟩, rfl⟩
    exact ⟨connection, listed, by rw [there, further]⟩

/-- Paths of positions are the paths of the nodes at them. One direction is an induction on the
path of positions, the other one on the path of nodes. -/
theorem reflTransGen_positionEdges_iff (wellFormed : graph.WellFormed) {id : NodeId}
    {start position : Nat} (there : graph.nodeIds[start]? = some id) :
    Relation.ReflTransGen (fun source target => (source, target) ∈ graph.positionEdges)
        start position ↔
      ∃ other, graph.nodeIds[position]? = some other ∧
        Relation.ReflTransGen graph.Leads id other := by
  constructor
  · intro path
    induction path with
    | refl => exact ⟨id, there, .refl⟩
    | tail _ edge inductionHypothesis =>
        obtain ⟨other, reached, below⟩ := inductionHypothesis
        obtain ⟨first, second, same, further, leads⟩ := wellFormed.mem_positionEdges_iff.mp edge
        obtain rfl := Option.some.inj (reached.symm.trans same)
        exact ⟨second, further, below.tail leads⟩
  · rintro ⟨other, reached, below⟩
    induction below generalizing position with
    | refl =>
        rw [wellFormed.position_unique there reached]
    | @tail middle other _ leads inductionHypothesis =>
        obtain ⟨between, found⟩ := List.mem_iff_getElem?.mp
          (wellFormed.mem_nodeIds_iff.mpr (wellFormed.source_live leads))
        exact (inductionHypothesis found).tail
          (wellFormed.mem_positionEdges_iff.mpr ⟨middle, other, found, reached, leads⟩)

/-- A search visits what it should exactly when the nodes at the positions it comes to are the
reachable ones, in some order. -/
theorem visits_iff (wellFormed : graph.WellFormed) {id : NodeId} {start : Nat}
    (there : graph.nodeIds[start]? = some id) {visited : List Nat} :
    Visits graph.positionEdges start visited ↔
      (visited.map fun position => graph.nodeIds[position]?).Perm
        ((graph.reachableFrom id).map some) := by
  have reachable : ∀ {position}, Relation.ReflTransGen
      (fun source target => (source, target) ∈ graph.positionEdges) start position ↔
        graph.nodeIds[position]? ∈ (graph.reachableFrom id).map some := by
    intro position
    have live := wellFormed.mem_nodeIds_iff.mp (List.mem_of_getElem? there)
    simp only [wellFormed.reflTransGen_positionEdges_iff there, List.mem_map,
      wellFormed.mem_reachableFrom_iff, and_iff_right live, and_comm, eq_comm]
  have distinct : ((graph.reachableFrom id).map some).Nodup :=
    (wellFormed.nodeIds_nodup.filter _).map (Option.some_injective NodeId)
  -- Positions that hold a reachable node are told apart by it.
  have apart : ∀ first second : Nat,
      graph.nodeIds[first]? ∈ (graph.reachableFrom id).map some →
        graph.nodeIds[first]? = graph.nodeIds[second]? → first = second := by
    intro first second member same
    obtain ⟨other, -, found⟩ := List.mem_map.mp member
    exact wellFormed.position_unique found.symm (same.symm.trans found.symm)
  constructor
  · intro visits
    have inside : ∀ position ∈ visited,
        graph.nodeIds[position]? ∈ (graph.reachableFrom id).map some :=
      fun position member => reachable.mp ((visits.mem_iff position).mp member)
    refine (List.perm_ext_iff_of_nodup ?_ distinct).mpr fun found => ?_
    · exact visits.nodup.map_on fun first member second _ same =>
        apart first second (inside first member) same
    constructor
    · intro listed
      obtain ⟨position, member, rfl⟩ := List.mem_map.mp listed
      exact inside position member
    · intro listed
      obtain ⟨other, member, rfl⟩ := List.mem_map.mp listed
      obtain ⟨position, found⟩ := List.mem_iff_getElem?.mp (List.mem_filter.mp member).1
      rw [← found] at listed ⊢
      exact List.mem_map_of_mem ((visits.mem_iff position).mpr (reachable.mpr listed))
  · intro same
    refine ⟨List.Nodup.of_map _ (same.nodup_iff.mpr distinct), fun position => ?_⟩
    rw [reachable, ← same.mem_iff]
    constructor
    · exact List.mem_map_of_mem
    · intro listed
      obtain ⟨other, member, found⟩ := List.mem_map.mp listed
      have reached := same.mem_iff.mp (List.mem_map_of_mem member)
      rwa [← apart other position reached found]

/-- Every search that visits what it can reach arrives at the reachable nodes. -/
theorem searchedFrom_eq (wellFormed : graph.WellFormed) {search : Nat → List Nat}
    (visits : ∀ start < graph.nodeIds.length,
      Visits graph.positionEdges start (search start)) (id : NodeId) :
    graph.searchedFrom search id = graph.reachableFrom id := by
  rw [searchedFrom]
  cases begins : graph.nodeIds.idxOf? id with
  | none =>
      have absent := List.idxOf?_eq_none_iff.mp begins
      refine (List.eq_nil_iff_forall_not_mem.mpr fun other reached => absent ?_).symm
      exact wellFormed.mem_nodeIds_iff.mpr (wellFormed.mem_reachableFrom_iff.mp reached).1
  | some start =>
      have there := wellFormed.idxOf?_nodeIds_iff.mp begins
      obtain ⟨inside, -⟩ := List.getElem?_eq_some_iff.mp there
      have same :=
        ((wellFormed.visits_iff there).mp (visits start inside)).filterMap fun item => item
      simp only [List.filterMap_map, Function.comp_def, List.filterMap_some] at same
      have selected : (graph.reachableFrom id).Sublist graph.nodeIds := List.filter_sublist
      have distinct := wellFormed.nodeIds_nodup.sublist selected
      refine eq_of_sublist_of_nodup wellFormed.nodeIds_nodup ?_ selected fun other => ?_
      · exact wellFormed.sorted_sublist (same.nodup_iff.mpr distinct)
          fun other member => selected.mem (same.mem_iff.mp member)
      · rw [mem_sorted_iff, same.mem_iff]

end WellFormed

/-- Which nodes a node of a graph with a history leads to. Nothing is reachable from a handle that
the graph does not hold. What is reachable from a node stands in the order of the graph, each once,
and is what its connections lead to along any number of them. Every search by positions that
visits what it can reach arrives at the same list. From the entry the whole walk is reachable, and
nothing else if no node of the walk has several connections. -/
theorem reachability_of_reachable (reachable : graph.Reachable) :
    (∀ id, ¬ graph.Live id → graph.reachableFrom id = []) ∧
      (∀ id, (graph.reachableFrom id).Sublist graph.nodeIds ∧ (graph.reachableFrom id).Nodup) ∧
      (∀ id, graph.Live id → ∀ other, other ∈ graph.reachableFrom id ↔
        graph.Live other ∧ Relation.ReflTransGen graph.Leads id other) ∧
      (∀ search, (∀ start < graph.nodeIds.length,
          Visits graph.positionEdges start (search start)) →
        ∀ id, graph.searchedFrom search id = graph.reachableFrom id) ∧
      ∀ entry, graph.linearize.entry = some entry →
        (∀ id ∈ graph.linearize.chain, id ∈ graph.reachableFrom entry) ∧
        ((∀ id ∈ graph.linearize.chain, (graph.outgoing id).length ≤ 1) →
          ∀ id, id ∈ graph.reachableFrom entry ↔ id ∈ graph.linearize.chain) := by
  have wellFormed := reachable.wellFormed
  refine ⟨fun id dead => ?_, fun id => ?_, fun id live other => ?_,
    fun _ visits => wellFormed.searchedFrom_eq visits, fun entry first => ?_⟩
  · refine List.eq_nil_iff_forall_not_mem.mpr fun other reached => ?_
    exact dead (wellFormed.mem_reachableFrom_iff.mp reached).1
  · exact ⟨List.filter_sublist, wellFormed.nodeIds_nodup.filter _⟩
  · constructor
    · intro reached
      exact ⟨wellFormed.mem_nodeIds_iff.mp (List.mem_filter.mp reached).1,
        (wellFormed.mem_reachableFrom_iff.mp reached).2⟩
    · rintro ⟨-, path⟩
      exact wellFormed.mem_reachableFrom_iff.mpr ⟨live, path⟩
  · exact ⟨fun _ => wellFormed.mem_reachableFrom_of_mem_chain first,
      wellFormed.mem_reachableFrom_iff_mem_chain first⟩

/-- A history of a graph whose walk comes back to its second node. A node outside of the walk is
connected to itself and, twice, to another one that leads into the walk. -/
def searchedHistory : List Edit := [
  .addNode { typeLabel := "COUNTER" },
  .addNode { typeLabel := "START" },
  .addNode { typeLabel := "WAIT" },
  .addNode { typeLabel := "MOTION" },
  .addNode { typeLabel := "GOTO" },
  .addNode { typeLabel := "WAIT" },
  .connect ⟨0⟩ ⟨5⟩,
  .removeNode ⟨0⟩,
  .connect ⟨1⟩ ⟨3⟩,
  .connect ⟨3⟩ ⟨2⟩,
  .connect ⟨2⟩ ⟨3⟩,
  .connect ⟨4⟩ ⟨2⟩,
  .connect ⟨5⟩ ⟨4⟩,
  .connect ⟨5⟩ ⟨4⟩,
  .connect ⟨5⟩ ⟨5⟩]

/-- The positions to which a search of that graph comes, the nearer ones first. -/
def searchedPositions (start : Nat) : List Nat :=
  ([[0, 2, 1], [1, 2], [2, 1], [3, 1, 2], [4, 3, 1, 2]][start]?).getD []

theorem reachability_after_searchedHistory :
    (empty.run searchedHistory).Reachable ∧
      (∀ start < (empty.run searchedHistory).nodeIds.length,
        Visits (empty.run searchedHistory).positionEdges start (searchedPositions start)) ∧
      (∀ id, (empty.run searchedHistory).searchedFrom searchedPositions id =
        (empty.run searchedHistory).reachableFrom id) ∧
      (empty.run searchedHistory).reachableFrom ⟨5⟩ = [⟨2⟩, ⟨3⟩, ⟨4⟩, ⟨5⟩] ∧
      Relation.ReflTransGen (empty.run searchedHistory).Leads ⟨5⟩ ⟨3⟩ ∧
      (empty.run searchedHistory).reachableFrom ⟨0⟩ = [] ∧
      (empty.run searchedHistory).linearize.entry = some ⟨1⟩ ∧
      (empty.run searchedHistory).linearize.chain = [⟨1⟩, ⟨3⟩, ⟨2⟩] ∧
      ∀ id, id ∈ (empty.run searchedHistory).reachableFrom ⟨1⟩ ↔ id ∈ [⟨1⟩, ⟨3⟩, ⟨2⟩] := by
  have reachable : (empty.run searchedHistory).Reachable := ⟨searchedHistory, rfl⟩
  have ids : (empty.run searchedHistory).nodeIds = [⟨1⟩, ⟨2⟩, ⟨3⟩, ⟨4⟩, ⟨5⟩] := by decide +kernel
  have visits : ∀ start < (empty.run searchedHistory).nodeIds.length,
      Visits (empty.run searchedHistory).positionEdges start (searchedPositions start) := by
    intro start inside
    have there := List.getElem?_eq_getElem inside
    refine (reachable.wellFormed.visits_iff there).mpr ?_
    revert start
    decide +kernel
  have entry : (empty.run searchedHistory).linearize.entry = some ⟨1⟩ := by decide +kernel
  have chain : (empty.run searchedHistory).linearize.chain = [⟨1⟩, ⟨3⟩, ⟨2⟩] := by decide +kernel
  have reached : (empty.run searchedHistory).reachableFrom ⟨5⟩ = [⟨2⟩, ⟨3⟩, ⟨4⟩, ⟨5⟩] := by
    decide +kernel
  have live : (empty.run searchedHistory).Live ⟨5⟩ := by
    rw [← reachable.wellFormed.mem_nodeIds_iff, ids]
    decide
  have absent : ¬ (empty.run searchedHistory).Live ⟨0⟩ := by
    rw [← reachable.wellFormed.mem_nodeIds_iff, ids]
    decide
  obtain ⟨dead, -, paths, searched, walked⟩ := reachability_of_reachable reachable
  have below := ((paths ⟨5⟩ live ⟨3⟩).mp (by rw [reached]; decide)).2
  have same := (walked ⟨1⟩ entry).2 (by rw [chain]; decide +kernel)
  rw [chain] at same
  exact ⟨reachable, visits, searched _ visits, reached, below, dead ⟨0⟩ absent, entry, chain, same⟩

end Graph

end MotionSteps
