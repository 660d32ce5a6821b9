import MotionSteps.Graph.Walk
import MotionSteps.Proofs.Graph.WellFormed
import MotionSteps.Proofs.Lists

/-!
# The walk of a linearization

The chain of a linearization is the longest sequence without a repetition that begins at
the entry and follows first connections. It is what a loop arrives at that only keeps the
nodes it has visited and never asks which nodes there are: in a well-formed graph first
connections lead to nodes of the graph, of which there are finitely many.
`linearization_of_reachable` states this of every graph with a history, together with
what stands behind the chain.
-/

namespace MotionSteps.Graph

/-- A sequence of nodes from a node on, in which the first connection of each leads to the
next. -/
inductive FirstPath (graph : Graph) : NodeId → List NodeId → Prop where
  | single (id : NodeId) : FirstPath graph id [id]
  | cons {id next : NodeId} {path : List NodeId} (leads : graph.firstSuccessor? id = some next)
      (rest : FirstPath graph next path) : FirstPath graph id (id :: path)

/-- A walk along first connections that has gone as far as it can without a repetition. -/
structure IsFirstWalk (graph : Graph) (entry : NodeId) (path : List NodeId) : Prop where
  follows : graph.FirstPath entry path
  nodup : path.Nodup
  /-- Behind the last node there is none, or one that was visited before. -/
  stops : ∀ last next, path.getLast? = some last → graph.firstSuccessor? last = some next →
    next ∈ path

/-- The walk as a loop over the nodes visited so far and the node it has come to, if any.
The loop ends at a dead end or at a node visited before. -/
inductive WalkLoop (graph : Graph) : List NodeId → Option NodeId → List NodeId → Prop where
  | deadEnd (visited : List NodeId) : WalkLoop graph visited none visited
  | revisit {visited : List NodeId} {current : NodeId} (seen : current ∈ visited) :
      WalkLoop graph visited (some current) visited
  | visit {visited result : List NodeId} {current : NodeId} (fresh : current ∉ visited)
      (further : WalkLoop graph (visited ++ [current]) (graph.firstSuccessor? current) result) :
      WalkLoop graph visited (some current) result

variable {graph : Graph}

/-! ## Paths along first connections -/

namespace FirstPath

theorem head?_eq {entry : NodeId} {path : List NodeId} (follows : graph.FirstPath entry path) :
    path.head? = some entry := by
  cases follows <;> rfl

/-- First connections leave no choice, so of two paths one continues the other. -/
theorem prefix_or_prefix {entry : NodeId} {first second : List NodeId}
    (followsFirst : graph.FirstPath entry first) (followsSecond : graph.FirstPath entry second) :
    first <+: second ∨ second <+: first := by
  induction followsFirst generalizing second with
  | single id =>
      left
      cases followsSecond with
      | single => exact List.prefix_rfl
      | cons leads rest => exact List.prefix_iff_eq_take.mpr rfl
  | cons leads rest inductionHypothesis =>
      cases followsSecond with
      | single => exact .inr (List.prefix_iff_eq_take.mpr rfl)
      | cons leadsToo restToo =>
          obtain rfl := Option.some.inj (leads.symm.trans leadsToo)
          simpa only [List.prefix_cons_inj] using inductionHypothesis restToo

/-- Behind a node of a path stands the one to which its first connection leads. -/
theorem firstSuccessor?_getElem? {entry id next : NodeId} {path : List NodeId}
    (follows : graph.FirstPath entry path) {position : Nat} (there : path[position]? = some id)
    (behind : path[position + 1]? = some next) : graph.firstSuccessor? id = some next := by
  induction follows generalizing position with
  | single entry => cases behind
  | cons leads rest inductionHypothesis =>
      cases position with
      | zero =>
          obtain rfl := Option.some.inj there
          rw [List.getElem?_cons_succ, ← List.head?_eq_getElem?, rest.head?_eq] at behind
          rw [leads, behind]
      | succ position => exact inductionHypothesis there behind

end FirstPath

/-- A walk that has gone as far as it can is the longest path without a repetition. -/
theorem IsFirstWalk.prefix_of_nodup {entry : NodeId} {path other : List NodeId}
    (walk : graph.IsFirstWalk entry path) (follows : graph.FirstPath entry other)
    (distinct : other.Nodup) : other <+: path := by
  rcases follows.prefix_or_prefix walk.follows with shorter | ⟨after, rfl⟩
  · exact shorter
  cases after with
  | nil => simp
  | cons next after =>
      have nonempty : path ≠ [] := by
        rintro rfl
        cases walk.follows
      have positive := List.length_pos_iff.mpr nonempty
      have ends := List.getLast?_eq_some_getLast nonempty
      have there : (path ++ next :: after)[path.length - 1]? = some (path.getLast nonempty) := by
        rw [List.getElem?_append_left (by omega), ← List.getLast?_eq_getElem?, ends]
      have behind : (path ++ next :: after)[path.length - 1 + 1]? = some next := by
        rw [Nat.sub_add_cancel positive, List.getElem?_append_right (Nat.le_refl _), Nat.sub_self]
        rfl
      have leads := follows.firstSuccessor?_getElem? there behind
      have again := walk.stops _ next ends leads
      exact absurd rfl ((List.nodup_append.mp distinct).2.2 next again next List.mem_cons_self)

/-- There is one such walk from an entry. -/
theorem IsFirstWalk.unique {entry : NodeId} {first second : List NodeId}
    (walkFirst : graph.IsFirstWalk entry first) (walkSecond : graph.IsFirstWalk entry second) :
    first = second := by
  have shorter := walkSecond.prefix_of_nodup walkFirst.follows walkFirst.nodup
  have longer := walkFirst.prefix_of_nodup walkSecond.follows walkSecond.nodup
  exact shorter.eq_of_length_le longer.length_le

/-- Such a walk holds whatever first connections lead to from it. -/
theorem IsFirstWalk.mem_of_firstSuccessor? {entry id next : NodeId} {path : List NodeId}
    (walk : graph.IsFirstWalk entry path) (member : id ∈ path)
    (leads : graph.firstSuccessor? id = some next) : next ∈ path := by
  obtain ⟨position, there⟩ := List.mem_iff_getElem?.mp member
  cases behind : path[position + 1]? with
  | none => exact walk.stops id next (getLast?_of_getElem? there behind) leads
  | some other =>
      have followed := walk.follows.firstSuccessor?_getElem? there behind
      rw [Option.some.inj (leads.symm.trans followed)]
      exact List.mem_of_getElem? behind

/-! ## The walk -/

theorem walk_eq_nil {unvisited : List NodeId} {current : NodeId} (away : current ∉ unvisited) :
    graph.walk unvisited current = [] := by
  rw [walk, dif_neg away]

theorem walk_ne_nil {unvisited : List NodeId} {current : NodeId} (here : current ∈ unvisited) :
    graph.walk unvisited current ≠ [] := by
  rw [walk, dif_pos here]
  exact List.cons_ne_nil _ _

/-- The walk visits unvisited nodes only. -/
theorem mem_unvisited_of_mem_walk {unvisited : List NodeId} {current id : NodeId}
    (member : id ∈ graph.walk unvisited current) : id ∈ unvisited := by
  fun_induction walk graph unvisited current with
  | case1 unvisited current here _ inductionHypothesis =>
      rcases List.mem_cons.mp member with rfl | later
      · exact here
      cases leads : graph.firstSuccessor? current with
      | none => simp [leads] at later
      | some next =>
          rw [leads] at later
          exact List.mem_of_mem_erase (inductionHypothesis next later)
  | case2 => cases member

/-- The walk visits no node twice. -/
theorem walk_nodup {unvisited : List NodeId} {current : NodeId} (distinct : unvisited.Nodup) :
    (graph.walk unvisited current).Nodup := by
  fun_induction walk graph unvisited current with
  | case1 unvisited current here _ inductionHypothesis =>
      cases graph.firstSuccessor? current with
      | none => simp
      | some next =>
          refine List.nodup_cons.mpr ⟨?_, inductionHypothesis next (distinct.erase current)⟩
          intro again
          exact distinct.not_mem_erase (mem_unvisited_of_mem_walk again)
  | case2 => exact List.nodup_nil

/-- The walk follows first connections. -/
theorem firstPath_walk {unvisited : List NodeId} {current : NodeId}
    (here : current ∈ unvisited) : graph.FirstPath current (graph.walk unvisited current) := by
  fun_induction walk graph unvisited current with
  | case1 unvisited current here _ inductionHypothesis =>
      cases leads : graph.firstSuccessor? current with
      | none => exact .single current
      | some next =>
          by_cases unseen : next ∈ unvisited.erase current
          · exact .cons leads (inductionHypothesis next unseen)
          · simp only [walk_eq_nil unseen]
            exact .single current
  | case2 unvisited current away => exact absurd here away

/-- The walk leaves no unvisited node behind its last one. -/
theorem mem_walk_of_getLast? {unvisited : List NodeId} {current last next : NodeId}
    (ends : (graph.walk unvisited current).getLast? = some last)
    (leads : graph.firstSuccessor? last = some next) (unseen : next ∈ unvisited) :
    next ∈ graph.walk unvisited current := by
  fun_induction walk graph unvisited current with
  | case1 unvisited current here _ inductionHypothesis =>
      by_cases same : next = current
      · rw [same]
        exact List.mem_cons_self
      have remaining : next ∈ unvisited.erase current := (List.mem_erase_of_ne same).mpr unseen
      cases leadsOn : graph.firstSuccessor? current with
      | none =>
          obtain rfl : current = last := by simpa [leadsOn] using ends
          rw [leads] at leadsOn
          cases leadsOn
      | some following =>
          simp only [leadsOn] at ends
          apply List.mem_cons_of_mem
          apply inductionHypothesis following _ remaining
          cases further : graph.walk (unvisited.erase current) following with
          | nil =>
              -- The walk stopped here, so what follows was visited, unlike `next`.
              obtain rfl : current = last := by simpa [further] using ends
              obtain rfl := Option.some.inj (leadsOn.symm.trans leads)
              exact absurd further (walk_ne_nil remaining)
          | cons second rest => rwa [further, List.getLast?_cons_cons] at ends
  | case2 => cases ends

/-- From an entry in the graph the walk goes as far as it can. -/
theorem WellFormed.isFirstWalk_walk (wellFormed : graph.WellFormed) {entry : NodeId}
    (live : graph.Live entry) :
    graph.IsFirstWalk entry (graph.walk graph.nodeIds entry) where
  follows := firstPath_walk (wellFormed.mem_nodeIds_iff.mpr live)
  nodup := walk_nodup wellFormed.nodeIds_nodup
  stops := by
    intro last next ends leads
    have liveNext := wellFormed.successor_live (mem_successors_of_firstSuccessor? leads)
    exact mem_walk_of_getLast? ends leads (wellFormed.mem_nodeIds_iff.mpr liveNext)

/-- The loop that keeps only what it has visited arrives at the walk: first connections
lead to nodes of the graph, and each of those is unvisited until it is visited. -/
theorem WellFormed.walkLoop (wellFormed : graph.WellFormed) {visited unvisited : List NodeId}
    {current : NodeId} (distinct : unvisited.Nodup)
    (split : ∀ id, graph.Live id → (id ∈ unvisited ↔ id ∉ visited))
    (live : graph.Live current) :
    graph.WalkLoop visited (some current) (visited ++ graph.walk unvisited current) := by
  fun_induction walk graph unvisited current generalizing visited with
  | case1 unvisited current here _ inductionHypothesis =>
      refine .visit ((split current live).mp here) ?_
      cases leads : graph.firstSuccessor? current with
      | none => exact .deadEnd (visited ++ [current])
      | some next =>
          have splitAfter : ∀ id, graph.Live id →
              (id ∈ unvisited.erase current ↔ id ∉ visited ++ [current]) := by
            intro id liveId
            simp [distinct.mem_erase_iff, split id liveId, and_comm]
          have liveNext := wellFormed.successor_live (mem_successors_of_firstSuccessor? leads)
          simpa using inductionHypothesis next (distinct.erase current) splitAfter liveNext
  | case2 unvisited current away =>
      rw [List.append_nil]
      by_cases seen : current ∈ visited
      · exact .revisit seen
      · exact absurd ((split current live).mpr seen) away

/-! ## The linearization -/

/-- The first start node is the first node whose kind is a start. -/
theorem head?_starts :
    graph.starts.head? = (graph.nodes.find? fun node => node.kind = .start).map Node.id := by
  simp only [starts, List.head?_map, List.head?_filter]

theorem linearize_of_no_start (nowhere : graph.starts.head? = none) :
    graph.linearize = ⟨none, graph.nodeIds, []⟩ := by
  rw [linearize, nowhere]

theorem linearize_of_start {entry : NodeId} (first : graph.starts.head? = some entry) :
    graph.linearize =
      ⟨some entry, graph.walk graph.nodeIds entry,
        graph.nodeIds.filter fun id => !(graph.walk graph.nodeIds entry).contains id⟩ := by
  rw [linearize, first]

theorem linearize_entry : graph.linearize.entry = graph.starts.head? := by
  cases first : graph.starts.head? with
  | none => rw [linearize_of_no_start first]
  | some entry => rw [linearize_of_start first]

theorem mem_isUnreached_iff {line : Linearization} {id : NodeId} :
    line.isUnreached id = true ↔ id ∈ line.unreached :=
  List.contains_iff_mem

/-- The chain holds nodes of the graph. -/
theorem mem_nodeIds_of_mem_chain {id : NodeId}
    (member : id ∈ graph.linearize.chain) : id ∈ graph.nodeIds := by
  cases first : graph.starts.head? with
  | none =>
      rw [linearize_of_no_start first] at member
      exact member
  | some entry =>
      rw [linearize_of_start first] at member
      exact mem_unvisited_of_mem_walk member

/-- What the chain misses is listed as unreached, in the order of the graph. -/
theorem unreached_eq :
    graph.linearize.unreached =
      graph.nodeIds.filter fun id => decide (id ∉ graph.linearize.chain) := by
  cases first : graph.starts.head? with
  | none =>
      rw [linearize_of_no_start first]
      refine (List.filter_eq_nil_iff.mpr ?_).symm
      intro id member
      simpa using member
  | some entry =>
      rw [linearize_of_start first]
      refine List.filter_congr ?_
      intro id _
      simp

namespace WellFormed

/-- A start node is a node of the graph. -/
theorem start_live (wellFormed : graph.WellFormed) {id : NodeId} (start : id ∈ graph.starts) :
    graph.Live id := by
  obtain ⟨node, member, rfl⟩ := List.mem_map.mp start
  exact ⟨node, wellFormed.mem_nodes_iff.mp (List.mem_filter.mp member).1⟩

/-- With an entry the chain is the walk from it. -/
theorem isFirstWalk_chain (wellFormed : graph.WellFormed) {entry : NodeId}
    (first : graph.linearize.entry = some entry) :
    graph.IsFirstWalk entry graph.linearize.chain := by
  rw [linearize_entry] at first
  rw [linearize_of_start first]
  exact wellFormed.isFirstWalk_walk (wellFormed.start_live (List.mem_of_mem_head? first))

/-- The chain repeats no node. -/
theorem chain_nodup (wellFormed : graph.WellFormed) : graph.linearize.chain.Nodup := by
  cases first : graph.starts.head? with
  | none =>
      rw [linearize_of_no_start first]
      exact wellFormed.nodeIds_nodup
  | some entry =>
      rw [linearize_of_start first]
      exact walk_nodup wellFormed.nodeIds_nodup

/-- No node stands twice in step order. -/
theorem order_nodup (wellFormed : graph.WellFormed) : graph.linearize.order.Nodup := by
  rw [Linearization.order, List.nodup_append, unreached_eq]
  refine ⟨wellFormed.chain_nodup, wellFormed.nodeIds_nodup.filter _, ?_⟩
  rintro id inChain _ missed rfl
  simp [inChain] at missed

/-- The nodes in step order are those of the graph. -/
theorem mem_order_iff (wellFormed : graph.WellFormed) {id : NodeId} :
    id ∈ graph.linearize.order ↔ graph.Live id := by
  rw [← wellFormed.mem_nodeIds_iff, Linearization.order, List.mem_append,
    unreached_eq, List.mem_filter, decide_eq_true_eq]
  constructor
  · rintro (inChain | ⟨member, -⟩)
    · exact mem_nodeIds_of_mem_chain inChain
    · exact member
  · intro member
    by_cases inChain : id ∈ graph.linearize.chain
    · exact .inl inChain
    · exact .inr ⟨member, inChain⟩

end WellFormed

/-- The linearization of a graph with a history. Every node stands in it exactly once. It
begins at the first start node, if there is one, and the loop of the walk comes to an end
with its chain, which is the longest path along first connections that repeats no node.
What the chain misses follows in the order of the graph. -/
theorem linearization_of_reachable (reachable : graph.Reachable) :
    graph.linearize.order.Nodup ∧
      (∀ id, id ∈ graph.linearize.order ↔ graph.Live id) ∧
      graph.linearize.entry =
        (graph.nodes.find? fun node => node.kind = .start).map Node.id ∧
      (∀ entry, graph.linearize.entry = some entry →
        graph.WalkLoop [] (some entry) graph.linearize.chain ∧
        graph.IsFirstWalk entry graph.linearize.chain ∧
        ∀ path, graph.FirstPath entry path → path.Nodup → path <+: graph.linearize.chain) ∧
      graph.linearize.unreached =
        graph.nodeIds.filter (fun id => decide (id ∉ graph.linearize.chain)) ∧
      (graph.linearize.entry = none →
        graph.linearize.order = graph.nodeIds ∧ graph.linearize.chain = graph.nodeIds ∧
          graph.linearize.unreached = []) ∧
      (∀ id, graph.linearize.isUnreached id = true ↔ id ∈ graph.linearize.unreached) := by
  have wellFormed := reachable.wellFormed
  refine ⟨wellFormed.order_nodup, fun id => wellFormed.mem_order_iff,
    linearize_entry.trans head?_starts, ?_, unreached_eq, ?_,
    fun id => mem_isUnreached_iff⟩
  · intro entry first
    have walk := wellFormed.isFirstWalk_chain first
    refine ⟨?_, walk, fun path follows distinct => walk.prefix_of_nodup follows distinct⟩
    rw [linearize_entry] at first
    rw [linearize_of_start first]
    have live := wellFormed.start_live (List.mem_of_mem_head? first)
    have split : ∀ id, graph.Live id → (id ∈ graph.nodeIds ↔ id ∉ []) := by
      intro id liveId
      simp [wellFormed.mem_nodeIds_iff, liveId]
    exact wellFormed.walkLoop wellFormed.nodeIds_nodup split live
  · intro nowhere
    rw [linearize_entry] at nowhere
    rw [linearize_of_no_start nowhere]
    exact ⟨List.append_nil _, rfl, rfl⟩

theorem linearization_after_busyHistory :
    (empty.run busyHistory).Reachable ∧
      (empty.run busyHistory).linearize.entry = some ⟨3⟩ ∧
      (empty.run busyHistory).linearize.chain = [⟨3⟩, ⟨2⟩] ∧
      (empty.run busyHistory).linearize.unreached = [⟨5⟩] ∧
      (empty.run busyHistory).WalkLoop [] (some ⟨3⟩) [⟨3⟩, ⟨2⟩] ∧
      (empty.run busyHistory).IsFirstWalk ⟨3⟩ [⟨3⟩, ⟨2⟩] := by
  have reachable : (empty.run busyHistory).Reachable := ⟨busyHistory, rfl⟩
  have entry : (empty.run busyHistory).linearize.entry = some ⟨3⟩ := by decide +kernel
  have chain : (empty.run busyHistory).linearize.chain = [⟨3⟩, ⟨2⟩] := by decide +kernel
  obtain ⟨-, -, -, walks, -⟩ := linearization_of_reachable reachable
  obtain ⟨loop, walk, -⟩ := walks ⟨3⟩ entry
  rw [chain] at loop walk
  exact ⟨reachable, entry, chain, by decide +kernel, loop, walk⟩

end MotionSteps.Graph
