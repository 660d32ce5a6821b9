import Mathlib.Data.List.Nodup
import MotionSteps.Proofs.Graph.Walk
import MotionSteps.Proofs.Lists

/-!
# Linearization up to handles

A renaming carries the nodes of one graph over to another, one for one and in order, with
their kinds and their first connections. The walk of the second graph is then that of the
first, renamed, and so is what the walk misses: the linearization looks at handles only to
tell nodes apart.
-/

namespace MotionSteps.Graph

/-- A renaming of handles that keeps what a linearization looks at. -/
structure Renames (first second : Graph) (rename : NodeId → NodeId) : Prop where
  nodes_eq : second.nodes.map (fun node => (node.id, node.kind)) =
    first.nodes.map fun node => (rename node.id, node.kind)
  leads_eq : ∀ id, first.Live id →
    second.firstSuccessor? (rename id) = (first.firstSuccessor? id).map rename

namespace Renames

variable {first second : Graph} {rename : NodeId → NodeId}

theorem nodeIds_eq (renames : Renames first second rename) :
    second.nodeIds = first.nodeIds.map rename := by
  have same := congrArg (List.map Prod.fst) renames.nodes_eq
  simpa only [nodeIds, List.map_map, Function.comp_def] using same

theorem starts_eq (renames : Renames first second rename) :
    second.starts = first.starts.map rename := by
  rw [starts, starts, List.map_map]
  exact map_filter_eq_of_map_eq renames.nodes_eq fun kind => decide (kind = .start)

/-- No two nodes are renamed alike, since the second graph lists no handle twice. -/
theorem injective_on_live (renames : Renames first second rename) (wellFormed : first.WellFormed)
    (wellFormedSecond : second.WellFormed) {id other : NodeId} (live : first.Live id)
    (liveOther : first.Live other) (same : rename id = rename other) : id = other := by
  have distinct := wellFormedSecond.nodeIds_nodup
  rw [renames.nodeIds_eq] at distinct
  exact List.inj_on_of_nodup_map distinct (wellFormed.mem_nodeIds_iff.mpr live)
    (wellFormed.mem_nodeIds_iff.mpr liveOther) same

/-! ## The walk -/

/-- Each step along a first connection is one in the second graph. -/
theorem firstPath (renames : Renames first second rename) (wellFormed : first.WellFormed)
    {entry : NodeId} {path : List NodeId} (follows : first.FirstPath entry path) :
    second.FirstPath (rename entry) (path.map rename) := by
  induction follows with
  | single id => exact .single (rename id)
  | @cons id next path leads _ inductionHypothesis =>
      have live := wellFormed.source_live (mem_successors_of_firstSuccessor? leads)
      have leadsSecond : second.firstSuccessor? (rename id) = some (rename next) := by
        rw [renames.leads_eq id live, leads, Option.map_some]
      exact .cons leadsSecond inductionHypothesis

/-- A walk that has gone as far as it can has done so in the second graph. -/
theorem isFirstWalk (renames : Renames first second rename) (wellFormed : first.WellFormed)
    (wellFormedSecond : second.WellFormed) {entry : NodeId} {path : List NodeId}
    (live : ∀ id ∈ path, first.Live id) (walk : first.IsFirstWalk entry path) :
    second.IsFirstWalk (rename entry) (path.map rename) where
  follows := renames.firstPath wellFormed walk.follows
  nodup := by
    refine List.Nodup.map_on (fun id member other otherMember same => ?_) walk.nodup
    exact renames.injective_on_live wellFormed wellFormedSecond (live id member)
      (live other otherMember) same
  stops := by
    intro lastRenamed nextRenamed ends leads
    rw [List.getLast?_map] at ends
    obtain ⟨last, endsFirst, rfl⟩ := Option.map_eq_some_iff.mp ends
    rw [renames.leads_eq last (live last (List.mem_of_getLast? endsFirst))] at leads
    obtain ⟨next, leadsFirst, rfl⟩ := Option.map_eq_some_iff.mp leads
    exact List.mem_map_of_mem (walk.stops last next endsFirst leadsFirst)

/-! ## The linearization -/

variable (renames : Renames first second rename) (wellFormed : first.WellFormed)
  (wellFormedSecond : second.WellFormed)

include renames wellFormed wellFormedSecond

theorem chain_eq : second.linearize.chain = first.linearize.chain.map rename := by
  have begins : second.starts.head? = first.starts.head?.map rename := by
    rw [renames.starts_eq, List.head?_map]
  cases entry : first.starts.head? with
  | none =>
      rw [entry, Option.map_none] at begins
      rw [linearize_of_no_start entry, linearize_of_no_start begins]
      exact renames.nodeIds_eq
  | some entry =>
      rw [entry, Option.map_some, ← linearize_entry] at begins
      have live : ∀ id ∈ first.linearize.chain, first.Live id := fun id member =>
        wellFormed.mem_nodeIds_iff.mp (mem_nodeIds_of_mem_chain member)
      have walk := wellFormed.isFirstWalk_chain (linearize_entry.trans entry)
      exact (wellFormedSecond.isFirstWalk_chain begins).unique
        (renames.isFirstWalk wellFormed wellFormedSecond live walk)

theorem unreached_eq : second.linearize.unreached = first.linearize.unreached.map rename := by
  rw [Graph.unreached_eq, Graph.unreached_eq, renames.chain_eq wellFormed wellFormedSecond,
    renames.nodeIds_eq, List.filter_map]
  refine congrArg _ (List.filter_congr fun id member => decide_eq_decide.mpr (not_congr ?_))
  constructor
  · intro inChain
    obtain ⟨other, otherInChain, same⟩ := List.mem_map.mp inChain
    have listed := mem_nodeIds_of_mem_chain otherInChain
    rwa [← renames.injective_on_live wellFormed wellFormedSecond
      (wellFormed.mem_nodeIds_iff.mp listed) (wellFormed.mem_nodeIds_iff.mp member) same]
  · exact List.mem_map_of_mem

/-- The step order of the second graph is that of the first, renamed. -/
theorem order_eq : second.linearize.order = first.linearize.order.map rename := by
  rw [Linearization.order, Linearization.order, List.map_append,
    renames.chain_eq wellFormed wellFormedSecond, renames.unreached_eq wellFormed wellFormedSecond]

end Renames

end MotionSteps.Graph
