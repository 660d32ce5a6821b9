import MotionSteps.Proofs.Graph.Reach
import MotionSteps.Proofs.Graph.Walk

/-!
# Graphs that are a single path

A graph is a single path if its nodes form one route, which begins at its only start, and
its connections run from each node of the route to the next, one each, and nowhere else.
`WellFormed.isSinglePath_iff` shows that four checks decide this: there is one start, the
walk misses no node, no node has several connections, and no cycle is listed. The route is
then the chain of the linearization.
-/

namespace MotionSteps

/-- The ends of a connection, the source first. -/
def Connection.ends (connection : Connection) : NodeId × NodeId :=
  (connection.source, connection.target)

namespace Graph

/-- The connections of a graph run along a route of all its nodes, which begins at its only
start. They are counted, so none stands beside another. -/
structure IsSinglePath (graph : Graph) (first : NodeId) (route : List NodeId) : Prop where
  starts_eq : graph.starts = [first]
  head?_eq : route.head? = some first
  nodup : route.Nodup
  mem_iff : ∀ id, id ∈ route ↔ graph.Live id
  ends_perm : (graph.connections.map Connection.ends).Perm (route.zip route.tail)

/-- Where the pairs with a source lead, in order. -/
def targetsOf (pairs : List (NodeId × NodeId)) (source : NodeId) : List NodeId :=
  (pairs.filter fun pair => pair.1 == source).map Prod.snd

variable {graph : Graph}

/-! ## Pairs by their source -/

theorem successors_eq_targetsOf (source : NodeId) :
    graph.successors source = targetsOf (graph.connections.map Connection.ends) source := by
  rw [targetsOf, List.filter_map, List.map_map]
  rfl

theorem length_successors (id : NodeId) :
    (graph.successors id).length = (graph.outgoing id).length :=
  List.length_map _

/-- A node with at most one connection leads to its first successor only. -/
theorem successors_of_narrow {id : NodeId} (narrow : (graph.outgoing id).length ≤ 1) :
    graph.successors id = (graph.firstSuccessor? id).toList := by
  rw [← length_successors] at narrow
  rw [firstSuccessor?]
  cases leads : graph.successors id with
  | nil => rfl
  | cons next others =>
      rw [leads, List.length_cons] at narrow
      rw [List.eq_nil_of_length_eq_zero (by omega : others.length = 0)]
      rfl

theorem count_targetsOf (pairs : List (NodeId × NodeId)) (source target : NodeId) :
    (targetsOf pairs source).count target = pairs.count (source, target) := by
  induction pairs with
  | nil => rfl
  | cons pair pairs inductionHypothesis =>
      obtain ⟨origin, next⟩ := pair
      by_cases same : origin = source
      · subst same
        simpa [targetsOf, List.count_cons] using inductionHypothesis
      · simpa [targetsOf, List.count_cons, same] using inductionHypothesis

/-- Pairs are the same up to their order if they are for each source. -/
theorem perm_iff_targetsOf {pairs others : List (NodeId × NodeId)} :
    pairs.Perm others ↔ ∀ source, (targetsOf pairs source).Perm (targetsOf others source) := by
  simp only [List.perm_iff_count, count_targetsOf]
  constructor
  · intro same source target
    exact same (source, target)
  · rintro same ⟨source, target⟩
    exact same source target

/-- Nothing leads on from a node outside of a route. -/
theorem targetsOf_zip_of_notMem {route : List NodeId} {id : NodeId} (outside : id ∉ route) :
    targetsOf (route.zip route.tail) id = [] := by
  rw [targetsOf, List.map_eq_nil_iff, List.filter_eq_nil_iff]
  rintro ⟨source, target⟩ member leaves
  obtain rfl : source = id := by simpa using leaves
  exact outside (List.of_mem_zip member).1

/-- A route leads on from a node to the next one, if there is one. -/
theorem targetsOf_zip {route : List NodeId} (distinct : route.Nodup) {position : Nat}
    {id : NodeId} (there : route[position]? = some id) :
    targetsOf (route.zip route.tail) id = route[position + 1]?.toList := by
  induction route generalizing position with
  | nil => cases there
  | cons first rest inductionHypothesis =>
      obtain ⟨fresh, distinctRest⟩ := List.nodup_cons.mp distinct
      have further := targetsOf_zip_of_notMem fresh
      cases rest with
      | nil => cases position <;> rfl
      | cons second rest =>
          cases position with
          | zero =>
              obtain rfl : first = id := by simpa using there
              simpa [targetsOf] using further
          | succ position =>
              have member : id ∈ second :: rest := List.mem_of_getElem? there
              have other : first ≠ id := by
                rintro rfl
                exact fresh member
              have later := inductionHypothesis distinctRest there
              simpa [targetsOf, other] using later

theorem perm_toList_iff {α : Type} {items : List α} {item : Option α} :
    items.Perm item.toList ↔ items = item.toList := by
  cases item with
  | none => simp
  | some item => simp

/-- A handle that is not in the graph leads nowhere. -/
theorem WellFormed.successors_eq_nil (wellFormed : graph.WellFormed) {id : NodeId}
    (dead : ¬ graph.Live id) : graph.successors id = [] := by
  refine List.eq_nil_iff_forall_not_mem.mpr ?_
  intro next leads
  exact dead (wellFormed.source_live leads)

/-- The connections run along a route of all nodes exactly when each node of the route leads
to the next one and to no other. -/
theorem WellFormed.ends_perm_iff (wellFormed : graph.WellFormed) {route : List NodeId}
    (distinct : route.Nodup) (complete : ∀ id, graph.Live id → id ∈ route) :
    (graph.connections.map Connection.ends).Perm (route.zip route.tail) ↔
      ∀ position id, route[position]? = some id →
        graph.successors id = route[position + 1]?.toList := by
  rw [perm_iff_targetsOf]
  simp only [← successors_eq_targetsOf]
  constructor
  · intro same position id there
    have leads := same id
    rw [targetsOf_zip distinct there] at leads
    exact perm_toList_iff.mp leads
  · intro along id
    by_cases member : id ∈ route
    · obtain ⟨position, there⟩ := List.mem_iff_getElem?.mp member
      rw [along position id there, targetsOf_zip distinct there]
    · rw [targetsOf_zip_of_notMem member, wellFormed.successors_eq_nil]
      exact fun live => member (complete id live)

/-! ## A single path is the walk from its start -/

/-- A route whose nodes lead to the next ones is a path along first connections. -/
theorem FirstPath.of_successors {entry : NodeId} {route : List NodeId}
    (begins : route.head? = some entry)
    (along : ∀ position id, route[position]? = some id →
      graph.successors id = route[position + 1]?.toList) : graph.FirstPath entry route := by
  induction route generalizing entry with
  | nil => cases begins
  | cons first rest inductionHypothesis =>
      obtain rfl : first = entry := by simpa using begins
      cases rest with
      | nil => exact .single first
      | cons second rest =>
          have leads : graph.firstSuccessor? first = some second := by
            rw [firstSuccessor?, along 0 first rfl]
            rfl
          refine .cons leads (inductionHypothesis rfl ?_)
          intro position id there
          exact along (position + 1) id there

/-- Every node of a path along first connections leads to the last one. -/
theorem FirstPath.reflTransGen_getLast {entry id last : NodeId} {path : List NodeId}
    (follows : graph.FirstPath entry path) (member : id ∈ path)
    (ends : path.getLast? = some last) : Relation.ReflTransGen graph.Leads id last := by
  induction follows generalizing id with
  | single entry =>
      obtain rfl : entry = last := by simpa using ends
      obtain rfl : id = entry := by simpa using member
      exact .refl
  | @cons entry next path leads rest inductionHypothesis =>
      have nonempty : path ≠ [] := by
        rintro rfl
        cases rest
      rw [List.getLast?_cons_of_ne_nil nonempty] at ends
      rcases List.mem_cons.mp member with rfl | later
      · have further := inductionHypothesis (List.mem_of_mem_head? rest.head?_eq) ends
        exact .head (mem_successors_of_firstSuccessor? leads) further
      · exact inductionHypothesis later ends

namespace IsSinglePath

variable {first : NodeId} {route : List NodeId}

theorem successors_eq (path : graph.IsSinglePath first route) (wellFormed : graph.WellFormed)
    {position : Nat} {id : NodeId} (there : route[position]? = some id) :
    graph.successors id = route[position + 1]?.toList :=
  (wellFormed.ends_perm_iff path.nodup fun other => (path.mem_iff other).mpr).mp
    path.ends_perm position id there

/-- The route goes as far as a walk from the start can. -/
theorem isFirstWalk (path : graph.IsSinglePath first route) (wellFormed : graph.WellFormed) :
    graph.IsFirstWalk first route where
  follows := .of_successors path.head?_eq fun _ _ there => path.successors_eq wellFormed there
  nodup := path.nodup
  stops := by
    intro last next ends leads
    rw [List.getLast?_eq_getElem?] at ends
    obtain ⟨inside, -⟩ := List.getElem?_eq_some_iff.mp ends
    have beyond : route[route.length - 1 + 1]? = none := by
      rw [List.getElem?_eq_none_iff]
      omega
    rw [firstSuccessor?, path.successors_eq wellFormed ends, beyond] at leads
    cases leads

/-- The route is the chain of the linearization. -/
theorem chain_eq (path : graph.IsSinglePath first route) (wellFormed : graph.WellFormed) :
    graph.linearize.chain = route := by
  have entry : graph.linearize.entry = some first := by
    rw [linearize_entry, path.starts_eq]
    rfl
  exact (wellFormed.isFirstWalk_chain entry).unique (path.isFirstWalk wellFormed)

/-- The walk misses no node. -/
theorem unreached_eq_nil (path : graph.IsSinglePath first route)
    (wellFormed : graph.WellFormed) : graph.linearize.unreached = [] := by
  rw [unreached_eq, List.filter_eq_nil_iff]
  intro id member
  rw [path.chain_eq wellFormed, decide_eq_true_eq, not_not, path.mem_iff]
  exact wellFormed.mem_nodeIds_iff.mp member

/-- The route is the step order. -/
theorem order_eq (path : graph.IsSinglePath first route) (wellFormed : graph.WellFormed) :
    graph.linearize.order = route := by
  rw [Linearization.order, path.chain_eq wellFormed, path.unreached_eq_nil wellFormed,
    List.append_nil]

/-- No node has several connections. -/
theorem length_outgoing_le (path : graph.IsSinglePath first route)
    (wellFormed : graph.WellFormed) (id : NodeId) : (graph.outgoing id).length ≤ 1 := by
  rw [← length_successors]
  by_contra several
  obtain ⟨next, leads⟩ :=
    List.exists_mem_of_length_pos (by omega : 0 < (graph.successors id).length)
  obtain ⟨position, there⟩ :=
    List.mem_iff_getElem?.mp ((path.mem_iff id).mpr (wellFormed.source_live leads))
  rw [path.successors_eq wellFormed there] at several
  exact several Option.length_toList_le

/-- Connections lead further along the route. -/
theorem lt_of_transGen (path : graph.IsSinglePath first route) (wellFormed : graph.WellFormed)
    {id other : NodeId} (below : Relation.TransGen graph.Leads id other) {position : Nat}
    (there : route[position]? = some id) :
    ∃ later, position < later ∧ route[later]? = some other := by
  have next : ∀ {position id other}, route[position]? = some id → graph.Leads id other →
      route[position + 1]? = some other := by
    intro position id other there leads
    rw [Leads, path.successors_eq wellFormed there, Option.mem_toList] at leads
    exact leads
  induction below with
  | single leads => exact ⟨position + 1, by omega, next there leads⟩
  | tail _ leads inductionHypothesis =>
      obtain ⟨later, further, found⟩ := inductionHypothesis
      exact ⟨later + 1, by omega, next found leads⟩

/-- No node leads to itself. -/
theorem cycles_eq_nil (path : graph.IsSinglePath first route) (wellFormed : graph.WellFormed) :
    graph.cycles = [] := by
  refine wellFormed.cycles_eq_nil_iff.mpr ?_
  intro id circle
  have live := wellFormed.mem_nodeIds_iff.mp (wellFormed.mem_nodeIds_of_transGen circle)
  obtain ⟨position, there⟩ := List.mem_iff_getElem?.mp ((path.mem_iff id).mpr live)
  obtain ⟨later, further, found⟩ := path.lt_of_transGen wellFormed circle there
  obtain ⟨inside, -⟩ := List.getElem?_eq_some_iff.mp there
  have same := (List.getElem?_inj inside path.nodup).mp (there.trans found.symm)
  omega

end IsSinglePath

/-! ## The checks -/

/-- Without a cycle, a walk from which nothing branches off ends at a node without
connections. -/
theorem IsFirstWalk.successors_eq {entry : NodeId} {route : List NodeId}
    (walk : graph.IsFirstWalk entry route)
    (narrow : ∀ id, (graph.outgoing id).length ≤ 1)
    (acyclic : ∀ id, ¬ Relation.TransGen graph.Leads id id) {position : Nat} {id : NodeId}
    (there : route[position]? = some id) :
    graph.successors id = route[position + 1]?.toList := by
  have first : graph.firstSuccessor? id = route[position + 1]? := by
    cases behind : route[position + 1]? with
    | some next => exact walk.follows.firstSuccessor?_getElem? there behind
    | none =>
        -- A last node with a connection would close a cycle.
        have ends := getLast?_of_getElem? there behind
        cases leads : graph.firstSuccessor? id with
        | none => rfl
        | some next =>
            have back := walk.follows.reflTransGen_getLast (walk.stops id next ends leads) ends
            have circle := Relation.TransGen.head' (mem_successors_of_firstSuccessor? leads) back
            exact absurd circle (acyclic id)
  rw [successors_of_narrow (narrow id), first]

/-- A graph is a single path exactly when it has one start, the walk from there misses no
node, no node has several connections, and there is no cycle. -/
theorem WellFormed.isSinglePath_iff (wellFormed : graph.WellFormed) {first : NodeId}
    {route : List NodeId} :
    graph.IsSinglePath first route ↔
      graph.starts = [first] ∧ graph.linearize.chain = route ∧ graph.linearize.unreached = [] ∧
        (∀ id, (graph.outgoing id).length ≤ 1) ∧ graph.cycles = [] := by
  constructor
  · intro path
    exact ⟨path.starts_eq, path.chain_eq wellFormed, path.unreached_eq_nil wellFormed,
      path.length_outgoing_le wellFormed, path.cycles_eq_nil wellFormed⟩
  · rintro ⟨start, rfl, complete, narrow, acyclic⟩
    have entry : graph.linearize.entry = some first := by
      rw [linearize_entry, start]
      rfl
    have walk := wellFormed.isFirstWalk_chain entry
    have whole : ∀ id, id ∈ graph.linearize.chain ↔ graph.Live id := by
      intro id
      rw [← wellFormed.mem_order_iff, Linearization.order, complete, List.append_nil]
    refine ⟨start, walk.follows.head?_eq, walk.nodup, whole, ?_⟩
    refine (wellFormed.ends_perm_iff walk.nodup fun id => (whole id).mpr).mpr ?_
    intro position id there
    exact walk.successors_eq narrow (wellFormed.cycles_eq_nil_iff.mp acyclic) there

end Graph

end MotionSteps
