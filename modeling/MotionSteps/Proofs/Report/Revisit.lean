import MotionSteps.Proofs.Graph.Reachability
import MotionSteps.Proofs.Report.Cycles

/-!
# Walks that come back

The walk of a linearization stops without a word at the first node that it has visited before.
The nodes from there to the end of the chain lead around in a circle, so they are on one cycle of
the graph, and the finding about that cycle names all their steps. `revisit_of_reachable` states
this, and that a report without such a finding is one on a walk that ran to a dead end.
-/

namespace MotionSteps.Graph

/-- The walk comes back to a position of its chain, and a report says so. The nodes from there on
are on one cycle, and a finding about that cycle names the steps of all of them. -/
structure ReportsReturn (graph : Graph) (report : Report) (position : Nat)
    (cycle : List NodeId) : Prop where
  mem_cycles : cycle ∈ graph.cycles
  /-- The cycle is found from the strongly connected components in any order. -/
  mem_cyclesAmong : ∀ components, graph.StronglyConnected components →
    cycle ∈ graph.cyclesAmong components
  closes : ∀ id ∈ graph.linearize.chain.drop position, id ∈ cycle
  reported : ∃ diagnostic ∈ report.withCode "W009", ∃ names,
    graph.ReportsCycle report cycle diagnostic names ∧
      ∀ id ∈ graph.linearize.chain.drop position, ∃ name ∈ names, graph.Names report id name

variable {graph : Graph}

/-! ## The end of the chain -/

/-- What is left of a path from one of its nodes on is a path from that node. -/
theorem FirstPath.drop {entry id : NodeId} {path : List NodeId} (follows : graph.FirstPath entry path)
    {position : Nat} (there : path[position]? = some id) :
    graph.FirstPath id (path.drop position) := by
  induction follows generalizing position with
  | single entry =>
      cases position with
      | zero =>
          obtain rfl := Option.some.inj there
          exact .single entry
      | succ position => cases there
  | cons leads rest inductionHypothesis =>
      cases position with
      | zero =>
          obtain rfl := Option.some.inj there
          exact .cons leads rest
      | succ position => exact inductionHypothesis there

/-- A walk whose last node leads on comes back to one of its nodes. From there on its nodes lead
around in a circle. -/
theorem IsFirstWalk.exists_circle {entry last next : NodeId} {path : List NodeId}
    (walk : graph.IsFirstWalk entry path) (ends : path.getLast? = some last)
    (leads : graph.firstSuccessor? last = some next) :
    ∃ position, path[position]? = some next ∧ ∀ id ∈ path.drop position,
      Relation.TransGen graph.Leads next id ∧ Relation.TransGen graph.Leads id next := by
  obtain ⟨position, there⟩ := List.mem_iff_getElem?.mp (walk.stops last next ends leads)
  obtain ⟨inside, -⟩ := List.getElem?_eq_some_iff.mp there
  have around := walk.follows.drop there
  have aroundEnds : (path.drop position).getLast? = some last := by
    rw [List.getLast?_drop, if_neg (by omega), ends]
  have back : ∀ id ∈ path.drop position, Relation.TransGen graph.Leads id next := by
    intro id member
    exact .tail' (around.reflTransGen_getLast member aroundEnds)
      (mem_successors_of_firstSuccessor? leads)
  have circle := back next (List.mem_of_mem_head? around.head?_eq)
  refine ⟨position, there, fun id member => ⟨?_, back id member⟩⟩
  exact circle.trans_left (around.reflTransGen_of_mem member)

/-! ## The finding -/

namespace WellFormed

variable {report : Report}

/-- A listed cycle is among the findings, which name the step of each of its nodes. -/
theorem exists_reported_cycle (wellFormed : graph.WellFormed)
    (analyzed : graph.analyze = .ok report) {cycle : List NodeId}
    (listed : cycle ∈ graph.cycles) :
    ∃ diagnostic ∈ report.withCode "W009", ∃ names,
      graph.ReportsCycle report cycle diagnostic names ∧
        ∀ id ∈ cycle, ∃ name ∈ names, graph.Names report id name := by
  obtain ⟨diagnostic, found, names, reports⟩ := wellFormed.exists_reportsCycle analyzed listed
  refine ⟨diagnostic, ?_, names, reports, fun id member => ?_⟩
  · rw [withCode_cycle analyzed]
    exact List.mem_filterMap.mpr ⟨cycle, listed, found⟩
  · exact exists_mem_of_forall₂ reports.named member

/-- A walk whose last node leads on is reported to come back. -/
theorem exists_reportsReturn (wellFormed : graph.WellFormed)
    (analyzed : graph.analyze = .ok report) {entry last next : NodeId}
    (first : graph.linearize.entry = some entry)
    (ends : graph.linearize.chain.getLast? = some last)
    (leads : graph.firstSuccessor? last = some next) :
    ∃ position cycle, graph.linearize.chain[position]? = some next ∧
      graph.ReportsReturn report position cycle := by
  obtain ⟨position, there, around⟩ :=
    (wellFormed.isFirstWalk_chain first).exists_circle ends leads
  have nextMember : next ∈ graph.linearize.chain.drop position := by
    refine List.mem_of_mem_head? ?_
    rw [List.head?_drop, there, Option.mem_some_iff]
  have circle := (around next nextMember).1
  have listed := wellFormed.component_mem_cycles circle
  have closes : ∀ id ∈ graph.linearize.chain.drop position, id ∈ graph.component next :=
    fun id member => wellFormed.mem_component_iff.mpr (around id member)
  obtain ⟨diagnostic, found, names, reports, named⟩ :=
    wellFormed.exists_reported_cycle analyzed listed
  refine ⟨position, _, there, listed, fun components connected => ?_, closes,
    diagnostic, found, names, reports, fun id member => named id (closes id member)⟩
  rw [wellFormed.cyclesAmong_eq connected]
  exact listed

end WellFormed

/-- What a report says about how the walk of a graph with a history and an entry ends. If the
last node of the chain leads on, the walk has come back to a position of the chain, and the nodes
from there on are on one cycle, which is reported with the steps of all of them. If no cycle is
reported, no connection leaves the last node. -/
theorem revisit_of_reachable (reachable : graph.Reachable) {entry : NodeId}
    (first : graph.linearize.entry = some entry) :
    ∃ last report, graph.linearize.chain.getLast? = some last ∧ graph.analyze = .ok report ∧
      (∀ next, graph.firstSuccessor? last = some next →
        ∃ position cycle, graph.linearize.chain[position]? = some next ∧
          graph.ReportsReturn report position cycle) ∧
      (report.hasCode "W009" = false → graph.outgoing last = []) := by
  have wellFormed := reachable.wellFormed
  have walk := wellFormed.isFirstWalk_chain first
  have begins : entry ∈ graph.linearize.chain := List.mem_of_mem_head? walk.follows.head?_eq
  obtain ⟨last, ends⟩ : ∃ last, graph.linearize.chain.getLast? = some last :=
    ⟨_, List.getLast?_eq_some_getLast (List.ne_nil_of_mem begins)⟩
  have nonempty : graph.nodes ≠ [] := by
    intro nothing
    have member := mem_nodeIds_of_mem_chain begins
    rw [nodeIds, nothing] at member
    cases member
  have analyzed := analyze_of_nodes_ne_nil nonempty
  refine ⟨last, _, ends, analyzed,
    fun _ => wellFormed.exists_reportsReturn analyzed first ends, fun silent => ?_⟩
  -- A connection would make the last node lead on, and the finding would be there.
  by_contra several
  obtain ⟨connection, others, leaves⟩ := List.exists_cons_of_ne_nil several
  have leads : graph.firstSuccessor? last = some connection.target := by
    rw [firstSuccessor?, successors, leaves]
    rfl
  obtain ⟨position, cycle, -, returned⟩ :=
    wellFormed.exists_reportsReturn analyzed first ends leads
  obtain ⟨diagnostic, found, -⟩ := returned.reported
  obtain ⟨listed, code⟩ := List.mem_filter.mp found
  exact List.any_eq_false.mp silent diagnostic listed code

/-- A history of a graph whose walk comes back to its third node, past a removed node and a
second cycle that the walk does not enter. -/
def returningHistory : List Edit := [
  .addNode { typeLabel := "MOTION" },
  .addNode { typeLabel := "START" },
  .addNode { typeLabel := "WAIT" },
  .addNode { typeLabel := "COUNTER" },
  .addNode { typeLabel := "GOTO" },
  .addNode { typeLabel := "WAIT" },
  .removeNode ⟨0⟩,
  .connect ⟨1⟩ ⟨3⟩,
  .connect ⟨3⟩ ⟨4⟩,
  .connect ⟨3⟩ ⟨5⟩,
  .connect ⟨4⟩ ⟨2⟩,
  .connect ⟨2⟩ ⟨4⟩,
  .connect ⟨5⟩ ⟨5⟩]

theorem revisit_after_returningHistory :
    (empty.run returningHistory).Reachable ∧
      (empty.run returningHistory).linearize.entry = some ⟨1⟩ ∧
      (empty.run returningHistory).linearize.chain = [⟨1⟩, ⟨3⟩, ⟨4⟩, ⟨2⟩] ∧
      (empty.run returningHistory).firstSuccessor? ⟨2⟩ = some ⟨4⟩ ∧
      ∃ report position cycle, (empty.run returningHistory).analyze = .ok report ∧
        (empty.run returningHistory).linearize.chain[position]? = some ⟨4⟩ ∧
        (empty.run returningHistory).ReportsReturn report position cycle ∧
        (report.withCode "W009").map Diagnostic.display =
          ["[W009] node_04: Connections form a cycle through node_04, node_03",
            "[W009] node_05: Connections form a cycle through node_05"] := by
  have reachable : (empty.run returningHistory).Reachable := ⟨returningHistory, rfl⟩
  have entry : (empty.run returningHistory).linearize.entry = some ⟨1⟩ := by decide +kernel
  have chain : (empty.run returningHistory).linearize.chain = [⟨1⟩, ⟨3⟩, ⟨4⟩, ⟨2⟩] := by
    decide +kernel
  have leads : (empty.run returningHistory).firstSuccessor? ⟨2⟩ = some ⟨4⟩ := by decide +kernel
  have nonempty : (empty.run returningHistory).nodes ≠ [] := by decide +kernel
  obtain ⟨last, report, ends, analyzed, returns, -⟩ := revisit_of_reachable reachable entry
  obtain rfl := Except.ok.inj (analyzed.symm.trans (analyze_of_nodes_ne_nil nonempty))
  obtain rfl : (⟨2⟩ : NodeId) = last := by
    rw [chain] at ends
    exact Option.some.inj ends
  obtain ⟨position, cycle, there, returned⟩ := returns ⟨4⟩ leads
  exact ⟨reachable, entry, chain, leads, _, position, cycle, analyzed, there, returned,
    by decide +kernel⟩

end MotionSteps.Graph
