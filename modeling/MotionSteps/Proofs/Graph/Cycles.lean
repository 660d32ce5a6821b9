import Mathlib.Data.List.Lattice
import Mathlib.Data.List.Pairwise
import Mathlib.Data.Set.Basic
import Mathlib.Order.Minimal
import MotionSteps.Proofs.Graph.Reach
import MotionSteps.Proofs.Lists

/-!
# The list of cycles

A cycle is a largest set of nodes of which each leads to each, itself included. `ListsCycles`
says that a list holds the cycles of a graph and in which order, and leaves no choice:
`WellFormed.listsCycles_iff` shows that it singles out one list. `WellFormed.cyclesAmong_eq`
uses this for the usual way to that list, which starts from the strongly connected components
in any order, drops single nodes without a connection to themselves, and sorts twice.
-/

namespace MotionSteps.Graph

/-- Each of some nodes leads to each of them, itself included, along at least one connection. -/
def Circular (graph : Graph) (members : Set NodeId) : Prop :=
  ∀ first ∈ members, ∀ second ∈ members, Relation.TransGen graph.Leads first second

/-- A largest set of nodes of which each leads to each. -/
def IsCycle (graph : Graph) (members : Set NodeId) : Prop :=
  members.Nonempty ∧ Maximal graph.Circular members

/-- The cycles of a graph, each once, by their first nodes. The nodes of a cycle, and the first
nodes of all cycles, stand in the order of the graph. -/
structure ListsCycles (graph : Graph) (cycles : List (List NodeId)) : Prop where
  isCycle_iff : ∀ members, graph.IsCycle members ↔ ∃ cycle ∈ cycles, members = {id | id ∈ cycle}
  nodup : ∀ cycle ∈ cycles, cycle.Nodup
  sublist : ∀ cycle ∈ cycles, cycle.Sublist graph.nodeIds
  heads_sublist : (cycles.map List.head?).Sublist (graph.nodeIds.map some)

/-- The strongly connected components of a graph, in any order and each in any order. Two nodes
are in one of them when each leads to the other along any number of connections. -/
structure StronglyConnected (graph : Graph) (components : List (List NodeId)) : Prop where
  perm : components.flatten.Perm graph.nodeIds
  nonempty : [] ∉ components
  together_iff : ∀ first ∈ graph.nodeIds, ∀ second ∈ graph.nodeIds,
    (∃ component ∈ components, first ∈ component ∧ second ∈ component) ↔
      Relation.ReflTransGen graph.Leads first second ∧
        Relation.ReflTransGen graph.Leads second first

/-- The place of a node in the order of the graph. -/
def place (graph : Graph) (id : NodeId) : Nat :=
  graph.nodeIds.idxOf id

/-- Whether a strongly connected component holds a cycle. A single node needs a connection to
itself. -/
def closes (graph : Graph) : List NodeId → Bool
  | [single] => (graph.successors single).contains single
  | _ => true

/-- Nodes in the order of the graph. -/
def sorted (graph : Graph) (members : List NodeId) : List NodeId :=
  members.mergeSort fun first second => graph.place first ≤ graph.place second

/-- The place of the first of some nodes. -/
def firstPlace (graph : Graph) (members : List NodeId) : Nat :=
  (members.head?.map graph.place).getD 0

/-- The cycles among strongly connected components, sorted by their first nodes. -/
def cyclesAmong (graph : Graph) (components : List (List NodeId)) : List (List NodeId) :=
  ((components.filter graph.closes).map graph.sorted).mergeSort fun first second =>
    graph.firstPlace first ≤ graph.firstPlace second

variable {graph : Graph}

/-! ## Cycles are components -/

namespace WellFormed

/-- The nodes of a component lead to each other. -/
theorem circular_component (wellFormed : graph.WellFormed) (id : NodeId) :
    graph.Circular {other | other ∈ graph.component id} := by
  intro first firstMember second secondMember
  exact (wellFormed.mem_component_iff.mp firstMember).2.trans
    (wellFormed.mem_component_iff.mp secondMember).1

/-- Nodes that lead to each other are in the component of each. -/
theorem subset_component (wellFormed : graph.WellFormed) {members : Set NodeId}
    (circular : graph.Circular members) {id : NodeId} (member : id ∈ members) :
    members ⊆ {other | other ∈ graph.component id} := by
  intro other otherMember
  exact wellFormed.mem_component_iff.mpr
    ⟨circular id member other otherMember, circular other otherMember id member⟩

/-- The cycles are the components of the nodes that lead to themselves. -/
theorem isCycle_iff (wellFormed : graph.WellFormed) {members : Set NodeId} :
    graph.IsCycle members ↔
      ∃ id, Relation.TransGen graph.Leads id id ∧
        members = {other | other ∈ graph.component id} := by
  constructor
  · rintro ⟨⟨id, member⟩, circular, largest⟩
    have within := wellFormed.subset_component circular member
    exact ⟨id, circular id member id member,
      Set.Subset.antisymm within (largest (wellFormed.circular_component id) within)⟩
  · rintro ⟨id, circle, rfl⟩
    have own := wellFormed.mem_component_self circle
    exact ⟨⟨id, own⟩, wellFormed.circular_component id,
      fun others circular within => wellFormed.subset_component circular (within own)⟩

/-- The nodes of a component in the order of the graph are told by its members. -/
theorem eq_component (wellFormed : graph.WellFormed) {cycle : List NodeId} {id : NodeId}
    (selected : cycle.Sublist graph.nodeIds)
    (same : ∀ other, other ∈ cycle ↔ other ∈ graph.component id) :
    cycle = graph.component id :=
  eq_of_sublist_of_nodup wellFormed.nodeIds_nodup selected List.filter_sublist same

/-! ## The listed cycles -/

/-- Two nodes are in one listed cycle when each leads to the other. -/
theorem together_iff (wellFormed : graph.WellFormed) (first second : NodeId) :
    (∃ cycle ∈ graph.cycles, first ∈ cycle ∧ second ∈ cycle) ↔
      Relation.TransGen graph.Leads first second ∧
        Relation.TransGen graph.Leads second first := by
  constructor
  · rintro ⟨cycle, listed, firstMember, secondMember⟩
    obtain ⟨id, -, rfl, -⟩ := eq_component_of_mem_cycles listed
    have circular := wellFormed.circular_component id
    exact ⟨circular first firstMember second secondMember,
      circular second secondMember first firstMember⟩
  · rintro ⟨down, up⟩
    have circle := down.trans up
    exact ⟨_, wellFormed.component_mem_cycles circle, wellFormed.mem_component_self circle,
      wellFormed.mem_component_iff.mpr ⟨down, up⟩⟩

/-- No node is in two listed cycles. -/
theorem cycles_disjoint (wellFormed : graph.WellFormed) :
    graph.cycles.Pairwise List.Disjoint := by
  rw [cycles_eq, List.pairwise_map]
  refine (wellFormed.nodeIds_nodup.filter _).pairwise_of_forall_ne ?_
  intro first firstListed second secondListed apart id firstMember secondMember
  have firstBegins := of_decide_eq_true (List.mem_filter.mp firstListed).2
  have secondBegins := of_decide_eq_true (List.mem_filter.mp secondListed).2
  rw [← wellFormed.component_eq firstMember, wellFormed.component_eq secondMember,
    secondBegins] at firstBegins
  exact apart (Option.some.inj firstBegins).symm

/-- The cycles of a graph are listed as they should be. -/
theorem listsCycles_cycles (wellFormed : graph.WellFormed) : graph.ListsCycles graph.cycles where
  isCycle_iff members := by
    rw [wellFormed.isCycle_iff]
    constructor
    · rintro ⟨id, circle, rfl⟩
      exact ⟨_, wellFormed.component_mem_cycles circle, rfl⟩
    · rintro ⟨cycle, listed, rfl⟩
      obtain ⟨id, -, rfl, begins⟩ := eq_component_of_mem_cycles listed
      have own := List.mem_of_mem_head? begins
      exact ⟨id, wellFormed.circular_component id id own id own, rfl⟩
  nodup cycle listed := by
    obtain ⟨id, -, rfl, -⟩ := eq_component_of_mem_cycles listed
    exact wellFormed.nodeIds_nodup.filter _
  sublist cycle listed := by
    obtain ⟨id, -, rfl, -⟩ := eq_component_of_mem_cycles listed
    exact List.filter_sublist
  heads_sublist := by
    have begins : graph.cycles.map List.head? =
        (graph.nodeIds.filter fun id => (graph.component id).head? = some id).map some := by
      rw [cycles_eq, List.map_map]
      refine List.map_congr_left fun id listed => ?_
      exact of_decide_eq_true (List.mem_filter.mp listed).2
    rw [begins]
    exact List.filter_sublist.map some

end WellFormed

namespace ListsCycles

variable {cycles : List (List NodeId)}

/-- A listed cycle is the component of the node at which it begins. -/
theorem eq_component (listed : graph.ListsCycles cycles) (wellFormed : graph.WellFormed)
    {cycle : List NodeId} {id : NodeId} (member : cycle ∈ cycles)
    (begins : cycle.head? = some id) : cycle = graph.component id := by
  obtain ⟨other, -, members⟩ :=
    wellFormed.isCycle_iff.mp ((listed.isCycle_iff {id | id ∈ cycle}).mpr ⟨cycle, member, rfl⟩)
  have same : ∀ third, third ∈ cycle ↔ third ∈ graph.component other := Set.ext_iff.mp members
  refine wellFormed.eq_component (listed.sublist cycle member) fun third => ?_
  rw [wellFormed.component_eq ((same id).mp (List.mem_of_mem_head? begins)), same]

/-- A cycle is listed at a node exactly when the component of the node begins with it. -/
theorem head?_mem_iff (listed : graph.ListsCycles cycles) (wellFormed : graph.WellFormed)
    (id : NodeId) :
    some id ∈ cycles.map List.head? ↔ (graph.component id).head? = some id := by
  rw [List.mem_map]
  constructor
  · rintro ⟨cycle, member, begins⟩
    rwa [← listed.eq_component wellFormed member begins]
  · intro begins
    have own := List.mem_of_mem_head? begins
    have circle := wellFormed.circular_component id id own id own
    obtain ⟨cycle, member, members⟩ :=
      (listed.isCycle_iff _).mp (wellFormed.isCycle_iff.mpr ⟨id, circle, rfl⟩)
    have same := wellFormed.eq_component (listed.sublist cycle member)
      fun other => (Set.ext_iff.mp members other).symm
    exact ⟨cycle, member, same ▸ begins⟩

/-- There is one such list. Both list a cycle at the same nodes, each of which tells the
cycle. -/
theorem eq_cycles (listed : graph.ListsCycles cycles) (wellFormed : graph.WellFormed) :
    cycles = graph.cycles := by
  obtain ⟨firsts, selected, begins⟩ := List.sublist_map_iff.mp listed.heads_sublist
  have same : firsts = graph.nodeIds.filter fun id => (graph.component id).head? = some id := by
    refine eq_of_sublist_of_nodup wellFormed.nodeIds_nodup selected List.filter_sublist ?_
    intro id
    rw [List.mem_filter, decide_eq_true_eq, ← listed.head?_mem_iff wellFormed, begins,
      List.mem_map_of_injective (Option.some_injective NodeId)]
    exact ⟨fun member => ⟨selected.mem member, member⟩, And.right⟩
  rw [cycles_eq, ← same]
  apply List.ext_getElem?
  intro position
  have beginsHere := congrArg (·[position]?) begins
  simp only [List.getElem?_map] at beginsHere ⊢
  cases there : cycles[position]? with
  | none =>
      rw [there] at beginsHere
      rw [Option.map_eq_none_iff.mp beginsHere.symm, Option.map_none]
  | some cycle =>
      rw [there, Option.map_some] at beginsHere
      obtain ⟨id, firstThere, begins⟩ := Option.map_eq_some_iff.mp beginsHere.symm
      rw [firstThere, Option.map_some]
      exact congrArg some
        (listed.eq_component wellFormed (List.mem_of_getElem? there) begins.symm)

end ListsCycles

/-- The cycles of a graph are the one list of them. -/
theorem WellFormed.listsCycles_iff (wellFormed : graph.WellFormed) {cycles : List (List NodeId)} :
    graph.ListsCycles cycles ↔ cycles = graph.cycles := by
  constructor
  · intro listed
    exact listed.eq_cycles wellFormed
  · rintro rfl
    exact wellFormed.listsCycles_cycles

/-! ## Cycles among components -/

theorem mem_sorted_iff {members : List NodeId} {id : NodeId} :
    id ∈ graph.sorted members ↔ id ∈ members :=
  List.mem_mergeSort

/-- Nodes of the graph in its order are a selection from it. -/
theorem WellFormed.sorted_sublist (wellFormed : graph.WellFormed) {members : List NodeId}
    (distinct : members.Nodup) (within : members ⊆ graph.nodeIds) :
    (graph.sorted members).Sublist graph.nodeIds := by
  refine sublist_of_pairwise_idxOf wellFormed.nodeIds_nodup ?_ ?_
    (pairwise_mergeSort_key graph.place members)
  · exact List.nodup_mergeSort.mpr distinct
  · intro id member
    exact within (mem_sorted_iff.mp member)

theorem mem_cyclesAmong_iff {components : List (List NodeId)} {cycle : List NodeId} :
    cycle ∈ graph.cyclesAmong components ↔
      ∃ component ∈ components, graph.closes component = true ∧ graph.sorted component = cycle := by
  simp only [cyclesAmong, List.mem_mergeSort, List.mem_map, List.mem_filter, and_assoc]

/-- Whether components are strongly connected can be told by searching. -/
theorem WellFormed.stronglyConnected (wellFormed : graph.WellFormed)
    {components : List (List NodeId)} (perm : components.flatten.Perm graph.nodeIds)
    (nonempty : [] ∉ components)
    (together : ∀ first ∈ graph.nodeIds, ∀ second ∈ graph.nodeIds,
      (∃ component ∈ components, first ∈ component ∧ second ∈ component) ↔
        second ∈ graph.reachableFrom first ∧ first ∈ graph.reachableFrom second) :
    graph.StronglyConnected components where
  perm := perm
  nonempty := nonempty
  together_iff first firstListed second secondListed := by
    have firstLive := wellFormed.mem_nodeIds_iff.mp firstListed
    have secondLive := wellFormed.mem_nodeIds_iff.mp secondListed
    rw [together first firstListed second secondListed, wellFormed.mem_reachableFrom_iff,
      wellFormed.mem_reachableFrom_iff, and_iff_right firstLive, and_iff_right secondLive]

namespace StronglyConnected

variable {components : List (List NodeId)} {component : List NodeId} {id : NodeId}

theorem mem_nodeIds (connected : graph.StronglyConnected components)
    (listed : component ∈ components) (member : id ∈ component) : id ∈ graph.nodeIds :=
  connected.perm.mem_iff.mp (List.mem_flatten.mpr ⟨component, listed, member⟩)

theorem exists_mem (connected : graph.StronglyConnected components)
    (listed : component ∈ components) : ∃ id, id ∈ component := by
  refine List.exists_mem_of_ne_nil component ?_
  rintro rfl
  exact connected.nonempty listed

/-- No node occurs twice, in one component or in several. -/
theorem nodup_and_disjoint (connected : graph.StronglyConnected components)
    (wellFormed : graph.WellFormed) :
    (∀ component ∈ components, component.Nodup) ∧ components.Pairwise List.Disjoint :=
  List.nodup_flatten.mp (connected.perm.nodup_iff.mpr wellFormed.nodeIds_nodup)

theorem eq_of_mem (connected : graph.StronglyConnected components)
    (wellFormed : graph.WellFormed) {other : List NodeId} (listed : component ∈ components)
    (otherListed : other ∈ components) (member : id ∈ component) (otherMember : id ∈ other) :
    component = other := by
  have disjoint := (connected.nodup_and_disjoint wellFormed).2
  by_contra apart
  have : Std.Symm (List.Disjoint (α := NodeId)) := ⟨fun _ _ => List.Disjoint.symm⟩
  exact disjoint.forall listed otherListed apart member otherMember

/-- A node and another are in one component if each leads to the other. -/
theorem mem_of_reflTransGen (connected : graph.StronglyConnected components)
    (wellFormed : graph.WellFormed) {other : NodeId} (listed : component ∈ components)
    (member : id ∈ component) (otherMember : other ∈ graph.nodeIds)
    (down : Relation.ReflTransGen graph.Leads id other)
    (up : Relation.ReflTransGen graph.Leads other id) : other ∈ component := by
  obtain ⟨common, commonListed, here, there⟩ := (connected.together_iff id
    (connected.mem_nodeIds listed member) other otherMember).mpr ⟨down, up⟩
  rwa [connected.eq_of_mem wellFormed listed commonListed member here]

/-- The nodes of a component lead to each other. -/
theorem reflTransGen_of_mem (connected : graph.StronglyConnected components) {other : NodeId}
    (listed : component ∈ components) (member : id ∈ component) (otherMember : other ∈ component) :
    Relation.ReflTransGen graph.Leads id other ∧ Relation.ReflTransGen graph.Leads other id :=
  (connected.together_iff id (connected.mem_nodeIds listed member) other
    (connected.mem_nodeIds listed otherMember)).mp ⟨component, listed, member, otherMember⟩

/-- Two nodes that are apart but in one component lead to themselves. -/
theorem transGen_of_ne (connected : graph.StronglyConnected components) {other : NodeId}
    (listed : component ∈ components) (member : id ∈ component) (otherMember : other ∈ component)
    (apart : other ≠ id) : Relation.TransGen graph.Leads id id := by
  obtain ⟨down, up⟩ := connected.reflTransGen_of_mem listed member otherMember
  rcases Relation.reflTransGen_iff_eq_or_transGen.mp down with same | further
  · exact absurd same apart
  · exact further.trans_left up

/-- A component is kept exactly when its nodes lead to themselves. -/
theorem closes_iff (connected : graph.StronglyConnected components)
    (wellFormed : graph.WellFormed) (listed : component ∈ components) (member : id ∈ component) :
    graph.closes component = true ↔ Relation.TransGen graph.Leads id id := by
  match component with
  | [] => cases member
  | [single] =>
      obtain rfl := List.mem_singleton.mp member
      rw [closes, List.contains_iff_mem]
      constructor
      · intro leads
        exact .single leads
      · intro circle
        -- What the node leads to is in the component, so it is the node itself.
        obtain ⟨next, leads, back⟩ := Relation.TransGen.head'_iff.mp circle
        have nextMember := wellFormed.mem_nodeIds_iff.mpr (wellFormed.successor_live leads)
        have common := connected.mem_of_reflTransGen wellFormed listed member nextMember
          (.single leads) back
        rwa [List.mem_singleton.mp common] at leads
  | first :: second :: rest =>
      have distinct := (connected.nodup_and_disjoint wellFormed).1 _ listed
      have apart : first ≠ second := by
        rintro rfl
        exact (List.nodup_cons.mp distinct).1 List.mem_cons_self
      have secondMember : second ∈ first :: second :: rest :=
        List.mem_cons_of_mem _ List.mem_cons_self
      simp only [closes, true_iff]
      by_cases same : id = first
      · subst same
        exact connected.transGen_of_ne listed member secondMember apart.symm
      · exact connected.transGen_of_ne listed member List.mem_cons_self (Ne.symm same)

/-- A component that is kept holds the nodes on the cycles through each of its nodes. -/
theorem mem_iff (connected : graph.StronglyConnected components)
    (wellFormed : graph.WellFormed) (listed : component ∈ components) (member : id ∈ component)
    (circle : Relation.TransGen graph.Leads id id) {other : NodeId} :
    other ∈ component ↔ other ∈ graph.component id := by
  rw [wellFormed.mem_component_iff]
  constructor
  · intro otherMember
    obtain ⟨down, up⟩ := connected.reflTransGen_of_mem listed member otherMember
    exact ⟨circle.trans_left down, Relation.TransGen.trans_right up circle⟩
  · rintro ⟨down, up⟩
    have otherMember := wellFormed.mem_nodeIds_of_transGen up
    exact connected.mem_of_reflTransGen wellFormed listed member otherMember down.to_reflTransGen
      up.to_reflTransGen

/-- Sorting the members of a kept component gives the same set of nodes as the component of
each in the graph. -/
theorem setOf_mem_sorted (connected : graph.StronglyConnected components)
    (wellFormed : graph.WellFormed) (listed : component ∈ components) (member : id ∈ component)
    (circle : Relation.TransGen graph.Leads id id) :
    {other | other ∈ graph.component id} = {other | other ∈ graph.sorted component} := by
  ext other
  exact (connected.mem_iff wellFormed listed member circle).symm.trans mem_sorted_iff.symm

/-- The cycles among components are apart, and stand in the order of their first nodes. -/
theorem pairwise_cyclesAmong (connected : graph.StronglyConnected components)
    (wellFormed : graph.WellFormed) :
    (graph.cyclesAmong components).Pairwise fun first second =>
      first.Disjoint second ∧ graph.firstPlace first ≤ graph.firstPlace second := by
  refine .and ?_ (pairwise_mergeSort_key graph.firstPlace _)
  have disjoint := (connected.nodup_and_disjoint wellFormed).2
  refine ((List.mergeSort_perm _ _).pairwise_iff List.Disjoint.symm).mpr ?_
  refine List.pairwise_map.mpr ((disjoint.filter _).imp ?_)
  intro first second apart id firstMember secondMember
  exact apart (mem_sorted_iff.mp firstMember) (mem_sorted_iff.mp secondMember)

/-- A cycle among components begins with a node of the graph. -/
theorem exists_head (connected : graph.StronglyConnected components) {cycle : List NodeId}
    (member : cycle ∈ graph.cyclesAmong components) :
    ∃ id ∈ graph.nodeIds, cycle.head? = some id := by
  obtain ⟨component, listed, -, rfl⟩ := mem_cyclesAmong_iff.mp member
  obtain ⟨other, otherMember⟩ := connected.exists_mem listed
  obtain ⟨id, rest, begins⟩ :=
    List.exists_cons_of_ne_nil (List.ne_nil_of_mem (mem_sorted_iff.mpr otherMember))
  have inSorted : id ∈ graph.sorted component := begins ▸ List.mem_cons_self
  exact ⟨id, connected.mem_nodeIds listed (mem_sorted_iff.mp inSorted), by rw [begins]; rfl⟩

/-- The first nodes of the cycles among components stand in the order of the graph. -/
theorem heads_sublist (connected : graph.StronglyConnected components)
    (wellFormed : graph.WellFormed) :
    ((graph.cyclesAmong components).map List.head?).Sublist (graph.nodeIds.map some) := by
  have begins : (graph.cyclesAmong components).map List.head? =
      ((graph.cyclesAmong components).filterMap List.head?).map some := by
    rw [List.map_filterMap, ← List.filterMap_eq_map]
    refine List.filterMap_congr fun cycle member => ?_
    obtain ⟨id, -, head⟩ := connected.exists_head member
    simp only [Function.comp_apply, head, Option.map_some]
  have ordered : ((graph.cyclesAmong components).filterMap List.head?).Pairwise
      fun first second => first ≠ second ∧ graph.place first ≤ graph.place second := by
    refine (connected.pairwise_cyclesAmong wellFormed).filterMap List.head? ?_
    rintro cycle other ⟨disjoint, before⟩ first firstBegins second secondBegins
    constructor
    · rintro rfl
      exact disjoint (List.mem_of_mem_head? firstBegins) (List.mem_of_mem_head? secondBegins)
    · simpa only [firstPlace, firstBegins, secondBegins, Option.map_some, Option.getD_some]
        using before
  rw [begins]
  refine List.Sublist.map some (sublist_of_pairwise_idxOf wellFormed.nodeIds_nodup
    (ordered.imp And.left) ?_ (ordered.imp And.right))
  intro id member
  obtain ⟨cycle, listed, head⟩ := List.mem_filterMap.mp member
  obtain ⟨other, live, otherHead⟩ := connected.exists_head listed
  rwa [Option.some.inj (head.symm.trans otherHead)]

/-- The cycles among the components are those of the graph, as they should be listed. -/
theorem listsCycles_cyclesAmong (connected : graph.StronglyConnected components)
    (wellFormed : graph.WellFormed) : graph.ListsCycles (graph.cyclesAmong components) := by
  have nodup : ∀ cycle ∈ graph.cyclesAmong components, cycle.Nodup := by
    intro cycle member
    obtain ⟨component, listed, -, rfl⟩ := mem_cyclesAmong_iff.mp member
    exact (List.mergeSort_perm _ _).nodup_iff.mpr
      ((connected.nodup_and_disjoint wellFormed).1 component listed)
  have sublist : ∀ cycle ∈ graph.cyclesAmong components, cycle.Sublist graph.nodeIds := by
    intro cycle member
    obtain ⟨component, listed, -, rfl⟩ := mem_cyclesAmong_iff.mp member
    exact wellFormed.sorted_sublist ((connected.nodup_and_disjoint wellFormed).1 component listed)
      fun id idMember => connected.mem_nodeIds listed idMember
  refine ⟨fun members => ?_, nodup, sublist, ?_⟩
  · rw [wellFormed.isCycle_iff]
    constructor
    · rintro ⟨id, circle, rfl⟩
      have live := wellFormed.mem_nodeIds_of_transGen circle
      obtain ⟨component, listed, member, -⟩ :=
        (connected.together_iff id live id live).mpr ⟨.refl, .refl⟩
      have closes := (connected.closes_iff wellFormed listed member).mpr circle
      exact ⟨_, mem_cyclesAmong_iff.mpr ⟨component, listed, closes, rfl⟩,
        connected.setOf_mem_sorted wellFormed listed member circle⟩
    · rintro ⟨cycle, member, rfl⟩
      obtain ⟨component, listed, closes, rfl⟩ := mem_cyclesAmong_iff.mp member
      obtain ⟨id, member⟩ := connected.exists_mem listed
      have circle := (connected.closes_iff wellFormed listed member).mp closes
      exact ⟨id, circle, (connected.setOf_mem_sorted wellFormed listed member circle).symm⟩
  · exact connected.heads_sublist wellFormed

end StronglyConnected

/-- From strongly connected components in any order one arrives at the listed cycles. -/
theorem WellFormed.cyclesAmong_eq (wellFormed : graph.WellFormed)
    {components : List (List NodeId)} (connected : graph.StronglyConnected components) :
    graph.cyclesAmong components = graph.cycles :=
  (connected.listsCycles_cyclesAmong wellFormed).eq_cycles wellFormed

end MotionSteps.Graph
