import Mathlib.Data.List.TakeWhile
import MotionSteps.Graph.Reach
import MotionSteps.Proofs.Graph.WellFormed

/-!
# Reachability and cycles

The search for the nodes below a node is exact in a well-formed graph: it is sound for
any pending nodes, and what it finds is closed under connections to nodes it was allowed
to find. `mem_reachableFrom_iff` states this of the nodes reachable from one, and
`cycles_eq_nil_iff` derives that no cycle is listed exactly when no node leads to itself.
-/

namespace MotionSteps.Graph

/-- A connection runs from a node to another, or to the same. -/
def Leads (graph : Graph) (source target : NodeId) : Prop :=
  target ∈ graph.successors source

variable {graph : Graph}

/-! ## The search -/

/-- What is found lies below a pending node. -/
theorem reflTransGen_of_mem_collect {unfound pending : List NodeId} {id : NodeId}
    (found : id ∈ graph.collect unfound pending) :
    id ∈ unfound ∧ ∃ origin ∈ pending, Relation.ReflTransGen graph.Leads origin id := by
  fun_induction collect graph unfound pending with
  | case1 => cases found
  | case2 unfound pending first rest next _ inductionHypothesis =>
      have waiting : ∀ other ∈ first :: rest, other ∈ pending := by
        intro other member
        exact (List.dropWhile_sublist _).mem (next ▸ member)
      rcases List.mem_cons.mp found with rfl | later
      · exact ⟨mem_of_dropWhile_eq_cons next, id, waiting id List.mem_cons_self, .refl⟩
      obtain ⟨remaining, origin, member, path⟩ := inductionHypothesis later
      refine ⟨List.mem_of_mem_erase remaining, ?_⟩
      rcases List.mem_append.mp member with below | behind
      · exact ⟨first, waiting first List.mem_cons_self, .head below path⟩
      · exact ⟨origin, waiting origin (List.mem_cons_of_mem _ behind), path⟩

/-- Only pending nodes that may not be found are passed over. -/
theorem mem_dropWhile_of_mem {unfound pending : List NodeId} {id : NodeId}
    (waiting : id ∈ pending) (allowed : id ∈ unfound) :
    id ∈ pending.dropWhile fun other => !unfound.contains other := by
  rw [← List.takeWhile_append_dropWhile (p := fun other => !unfound.contains other)
    (l := pending), List.mem_append] at waiting
  rcases waiting with dropped | kept
  · have refused := List.mem_takeWhile_imp dropped
    simp [allowed] at refused
  · exact kept

/-- A pending node is found if it may be. -/
theorem mem_collect_of_mem_pending {unfound pending : List NodeId} {id : NodeId}
    (waiting : id ∈ pending) (allowed : id ∈ unfound) : id ∈ graph.collect unfound pending := by
  fun_induction collect graph unfound pending with
  | case1 unfound pending nothing =>
      have kept := mem_dropWhile_of_mem waiting allowed
      rw [nothing] at kept
      cases kept
  | case2 unfound pending first rest next _ inductionHypothesis =>
      have kept := mem_dropWhile_of_mem waiting allowed
      rw [next] at kept
      by_cases same : id = first
      · rw [same]
        exact List.mem_cons_self
      have behind : id ∈ rest := (List.mem_cons.mp kept).resolve_left same
      have remaining : id ∈ unfound.erase first := (List.mem_erase_of_ne same).mpr allowed
      exact List.mem_cons_of_mem _
        (inductionHypothesis (List.mem_append_right _ behind) remaining)

/-- What a found node leads to is found if it may be. -/
theorem mem_collect_of_leads {unfound pending : List NodeId} {source target : NodeId}
    (found : source ∈ graph.collect unfound pending) (leads : graph.Leads source target)
    (allowed : target ∈ unfound) : target ∈ graph.collect unfound pending := by
  fun_induction collect graph unfound pending with
  | case1 => cases found
  | case2 unfound pending first rest next _ inductionHypothesis =>
      by_cases same : target = first
      · rw [same]
        exact List.mem_cons_self
      have remaining : target ∈ unfound.erase first := (List.mem_erase_of_ne same).mpr allowed
      apply List.mem_cons_of_mem
      rcases List.mem_cons.mp found with rfl | later
      · exact mem_collect_of_mem_pending (List.mem_append_left _ leads) remaining
      · exact inductionHypothesis later remaining

/-- The search looks at nothing but where the nodes lead. -/
theorem collect_congr {other : Graph} (same : ∀ id, other.successors id = graph.successors id)
    (unfound pending : List NodeId) :
    other.collect unfound pending = graph.collect unfound pending := by
  fun_induction collect graph unfound pending with
  | case1 unfound pending nothing =>
      rw [collect]
      split
      · rfl
      · next found => cases nothing.symm.trans found
  | case2 unfound pending first rest next _ inductionHypothesis =>
      rw [collect]
      split
      · next nothing => cases nothing.symm.trans next
      · next id others found =>
          obtain ⟨rfl, rfl⟩ := List.cons.inj (found.symm.trans next)
          rw [same, inductionHypothesis]

/-- In a well-formed graph the search finds every node below a pending node of the graph. -/
theorem WellFormed.mem_collect_of_reflTransGen (wellFormed : graph.WellFormed)
    {pending : List NodeId} {origin id : NodeId} (waiting : origin ∈ pending)
    (live : graph.Live origin) (path : Relation.ReflTransGen graph.Leads origin id) :
    id ∈ graph.collect graph.nodeIds pending := by
  induction path with
  | refl => exact mem_collect_of_mem_pending waiting (wellFormed.mem_nodeIds_iff.mpr live)
  | tail _ leads inductionHypothesis =>
      exact mem_collect_of_leads inductionHypothesis leads
        (wellFormed.mem_nodeIds_iff.mpr (wellFormed.successor_live leads))

/-- The descendants of a node are the nodes to which it leads along at least one
connection. -/
theorem WellFormed.mem_descendants_iff (wellFormed : graph.WellFormed) {id other : NodeId} :
    other ∈ graph.descendants id ↔ Relation.TransGen graph.Leads id other := by
  rw [descendants, inOrder, List.mem_filter, List.contains_iff_mem, Relation.TransGen.head'_iff]
  constructor
  · rintro ⟨-, found⟩
    obtain ⟨-, next, leads, path⟩ := reflTransGen_of_mem_collect found
    exact ⟨next, leads, path⟩
  · rintro ⟨next, leads, path⟩
    have found :=
      wellFormed.mem_collect_of_reflTransGen leads (wellFormed.successor_live leads) path
    exact ⟨(reflTransGen_of_mem_collect found).1, found⟩

/-- The nodes reachable from a node of the graph are those to which it leads along any number
of connections. Nothing is reachable from a node that the graph does not hold. -/
theorem WellFormed.mem_reachableFrom_iff (wellFormed : graph.WellFormed) {id other : NodeId} :
    other ∈ graph.reachableFrom id ↔
      graph.Live id ∧ Relation.ReflTransGen graph.Leads id other := by
  rw [reachableFrom, inOrder, List.mem_filter, List.contains_iff_mem]
  constructor
  · rintro ⟨member, found⟩
    obtain ⟨-, origin, waiting, path⟩ := reflTransGen_of_mem_collect found
    obtain rfl := List.mem_singleton.mp waiting
    refine ⟨?_, path⟩
    rcases path.cases_head with rfl | ⟨next, leads, -⟩
    · exact wellFormed.mem_nodeIds_iff.mp member
    · exact wellFormed.source_live leads
  · rintro ⟨live, path⟩
    have found := wellFormed.mem_collect_of_reflTransGen (List.mem_singleton_self id) live path
    exact ⟨(reflTransGen_of_mem_collect found).1, found⟩

/-- What leads to a node is a node of the graph. -/
theorem WellFormed.mem_nodeIds_of_transGen (wellFormed : graph.WellFormed) {id other : NodeId}
    (path : Relation.TransGen graph.Leads id other) : id ∈ graph.nodeIds := by
  obtain ⟨next, leads, -⟩ := Relation.TransGen.head'_iff.mp path
  exact wellFormed.mem_nodeIds_iff.mpr (wellFormed.source_live leads)

/-! ## Cycles -/

/-- The nodes that lead to a node and to which it leads. -/
def component (graph : Graph) (id : NodeId) : List NodeId :=
  graph.nodeIds.filter fun other =>
    (graph.descendants id).contains other && (graph.descendants other).contains id

/-- The listed cycles are the components, each listed at the first of its nodes. -/
theorem cycles_eq (graph : Graph) :
    graph.cycles =
      (graph.nodeIds.filter fun id => (graph.component id).head? = some id).map
        graph.component := by
  have members : ∀ id,
      (graph.nodeIds.filterMap fun other =>
        if (graph.descendants id).contains other && (graph.descendants other).contains id then
          some other
        else none) = graph.component id := by
    intro id
    rw [component, ← List.filterMap_eq_filter]
    rfl
  simp only [cycles, List.filterMap_map, Function.comp_def, members]
  rw [← List.filterMap_eq_filter, List.map_filterMap]
  refine List.filterMap_congr fun id _ => ?_
  by_cases begins : (graph.component id).head? = some id <;> simp [begins]

/-- The component of a node holds the nodes on the cycles through it. -/
theorem WellFormed.mem_component_iff (wellFormed : graph.WellFormed) {id other : NodeId} :
    other ∈ graph.component id ↔
      Relation.TransGen graph.Leads id other ∧ Relation.TransGen graph.Leads other id := by
  rw [component, List.mem_filter, Bool.and_eq_true, List.contains_iff_mem,
    List.contains_iff_mem, wellFormed.mem_descendants_iff, wellFormed.mem_descendants_iff]
  constructor
  · exact And.right
  · intro circle
    exact ⟨wellFormed.mem_nodeIds_of_transGen circle.2, circle⟩

/-- A node that leads to itself is in its component. -/
theorem WellFormed.mem_component_self (wellFormed : graph.WellFormed) {id : NodeId}
    (circle : Relation.TransGen graph.Leads id id) : id ∈ graph.component id :=
  wellFormed.mem_component_iff.mpr ⟨circle, circle⟩

/-- Nodes on a common cycle have the same component. -/
theorem WellFormed.component_eq (wellFormed : graph.WellFormed) {id other : NodeId}
    (member : other ∈ graph.component id) : graph.component other = graph.component id := by
  obtain ⟨down, up⟩ := wellFormed.mem_component_iff.mp member
  refine List.filter_congr fun third _ => ?_
  rw [Bool.eq_iff_iff]
  simp only [Bool.and_eq_true, List.contains_iff_mem, wellFormed.mem_descendants_iff]
  constructor
  · rintro ⟨below, above⟩
    exact ⟨down.trans below, above.trans up⟩
  · rintro ⟨below, above⟩
    exact ⟨up.trans below, above.trans down⟩

/-- A listed cycle is the component of the node at which it begins. -/
theorem eq_component_of_mem_cycles {cycle : List NodeId} (listed : cycle ∈ graph.cycles) :
    ∃ id ∈ graph.nodeIds, cycle = graph.component id ∧ cycle.head? = some id := by
  rw [cycles_eq] at listed
  obtain ⟨id, selected, rfl⟩ := List.mem_map.mp listed
  obtain ⟨member, begins⟩ := List.mem_filter.mp selected
  exact ⟨id, member, rfl, of_decide_eq_true begins⟩

/-- The component of a node that leads to itself is listed. -/
theorem WellFormed.component_mem_cycles (wellFormed : graph.WellFormed) {id : NodeId}
    (circle : Relation.TransGen graph.Leads id id) : graph.component id ∈ graph.cycles := by
  have own := wellFormed.mem_component_self circle
  obtain ⟨first, rest, begins⟩ := List.exists_cons_of_ne_nil (List.ne_nil_of_mem own)
  have member : first ∈ graph.component id := begins ▸ List.mem_cons_self
  rw [cycles_eq, ← wellFormed.component_eq member]
  refine List.mem_map_of_mem (List.mem_filter.mpr ⟨(List.mem_filter.mp member).1, ?_⟩)
  rw [wellFormed.component_eq member, begins]
  simp

/-- No cycle is listed exactly when no node leads to itself. -/
theorem WellFormed.cycles_eq_nil_iff (wellFormed : graph.WellFormed) :
    graph.cycles = [] ↔ ∀ id, ¬ Relation.TransGen graph.Leads id id := by
  constructor
  · intro none id circle
    have listed := wellFormed.component_mem_cycles circle
    rw [none] at listed
    cases listed
  · intro acyclic
    refine List.eq_nil_iff_forall_not_mem.mpr ?_
    intro cycle listed
    obtain ⟨id, -, rfl, begins⟩ := eq_component_of_mem_cycles listed
    exact acyclic id (wellFormed.mem_component_iff.mp (List.mem_of_mem_head? begins)).1

end MotionSteps.Graph
