import MotionSteps.Proofs.Graph.Cycles
import MotionSteps.Proofs.Report.Findings

/-!
# Cycles in reports

A report has one finding for each cycle of the graph, in the order in which they are listed. The
finding stands at the first node of the cycle and names the steps of all. `cycles_of_reachable`
joins this with what the list of cycles is.
-/

namespace MotionSteps.Graph

/-- A diagnostic reports a cycle. It gives the names of all its nodes' steps, and stands at the
first node and its step. -/
structure ReportsCycle (graph : Graph) (report : Report) (cycle : List NodeId)
    (diagnostic : Diagnostic) (names : List String) : Prop where
  named : List.Forall₂ (graph.Names report) cycle names
  message_eq : diagnostic.finding.message =
    "Connections form a cycle through " ++ ", ".intercalate names
  place_eq : ∃ id name, cycle.head? = some id ∧ names.head? = some name ∧
    diagnostic.place = some ⟨name, id⟩

variable {graph : Graph}

/-- Every listed cycle is reported. -/
theorem WellFormed.exists_reportsCycle (wellFormed : graph.WellFormed) {report : Report}
    (analyzed : graph.analyze = .ok report) {cycle : List NodeId} (listed : cycle ∈ graph.cycles) :
    ∃ diagnostic,
      cycleDiagnostic? (graph.compiledSteps graph.linearize) cycle = some diagnostic ∧
      ∃ names, graph.ReportsCycle report cycle diagnostic names := by
  have named : List.Forall₂ (graph.Names report) cycle
      (cycle.filterMap (stepIdOf? (graph.compiledSteps graph.linearize))) := by
    refine forall₂_filterMap fun id member => wellFormed.exists_names analyzed ?_
    have selected := wellFormed.listsCycles_cycles.sublist cycle listed
    exact wellFormed.mem_nodeIds_iff.mp (selected.mem member)
  obtain ⟨id, -, -, begins⟩ := eq_component_of_mem_cycles listed
  obtain ⟨rest, rfl⟩ := List.head?_eq_some_iff.mp begins
  cases names : (id :: rest).filterMap (stepIdOf? (graph.compiledSteps graph.linearize)) with
  | nil =>
      rw [names] at named
      cases named
  | cons name others =>
      rw [names] at named
      refine ⟨⟨.cycle (name :: others), some ⟨name, id⟩⟩, ?_, name :: others, named, rfl,
        id, name, rfl, rfl, rfl⟩
      simp only [cycleDiagnostic?, names]
      rfl

/-- The cycles of a graph with a history. They are the largest sets of nodes of which each leads
to each, itself included, and are listed in one order only: a node is in one of them when it
leads to itself, never in two, and shares one with another node when each leads to the other. One
arrives at the list from the strongly connected components in any order. A report has one finding
for each cycle, in order. -/
theorem cycles_of_reachable (reachable : graph.Reachable) :
    (∀ cycles, graph.ListsCycles cycles ↔ cycles = graph.cycles) ∧
      (∀ id, (∃ cycle ∈ graph.cycles, id ∈ cycle) ↔ Relation.TransGen graph.Leads id id) ∧
      graph.cycles.Pairwise List.Disjoint ∧
      (∀ first second, (∃ cycle ∈ graph.cycles, first ∈ cycle ∧ second ∈ cycle) ↔
        Relation.TransGen graph.Leads first second ∧
          Relation.TransGen graph.Leads second first) ∧
      (∀ components, graph.StronglyConnected components →
        graph.cyclesAmong components = graph.cycles) ∧
      (graph.nodes ≠ [] → ∃ report, graph.analyze = .ok report) ∧
      ∀ report, graph.analyze = .ok report →
        List.Forall₂ (fun cycle diagnostic => ∃ names,
          graph.ReportsCycle report cycle diagnostic names) graph.cycles
          (report.withCode "W009") := by
  have wellFormed := reachable.wellFormed
  refine ⟨fun cycles => wellFormed.listsCycles_iff, fun id => ?_, wellFormed.cycles_disjoint,
    wellFormed.together_iff, fun components connected => wellFormed.cyclesAmong_eq connected,
    fun nonempty => ⟨_, analyze_of_nodes_ne_nil nonempty⟩, fun report analyzed => ?_⟩
  · simpa only [and_self] using wellFormed.together_iff id id
  · rw [withCode_cycle analyzed]
    exact forall₂_filterMap fun cycle listed => wellFormed.exists_reportsCycle analyzed listed

/-- A history of a graph with a cycle of two nodes that the walk enters at the later one, and
with a node that is connected to itself. -/
def circularHistory : List Edit := [
  .addNode { typeLabel := "START" },
  .addNode { typeLabel := "WAIT" },
  .addNode { typeLabel := "MOTION" },
  .addNode { typeLabel := "GOTO" },
  .addNode { typeLabel := "COUNTER" },
  .addNode { typeLabel := "END" },
  .removeNode ⟨1⟩,
  .connect ⟨3⟩ ⟨3⟩,
  .connect ⟨4⟩ ⟨2⟩,
  .connect ⟨2⟩ ⟨4⟩,
  .connect ⟨0⟩ ⟨4⟩]

theorem cycles_after_circularHistory :
    (empty.run circularHistory).Reachable ∧
      (empty.run circularHistory).ListsCycles [[⟨2⟩, ⟨4⟩], [⟨3⟩]] ∧
      (empty.run circularHistory).StronglyConnected [[⟨5⟩], [⟨3⟩], [⟨4⟩, ⟨2⟩], [⟨0⟩]] ∧
      (empty.run circularHistory).cyclesAmong [[⟨5⟩], [⟨3⟩], [⟨4⟩, ⟨2⟩], [⟨0⟩]] =
        [[⟨2⟩, ⟨4⟩], [⟨3⟩]] ∧
      ∃ report, (empty.run circularHistory).analyze = .ok report ∧
        List.Forall₂ (fun cycle diagnostic => ∃ names,
          (empty.run circularHistory).ReportsCycle report cycle diagnostic names)
          [[⟨2⟩, ⟨4⟩], [⟨3⟩]] (report.withCode "W009") ∧
        (report.withCode "W009").map Diagnostic.display =
          ["[W009] node_03: Connections form a cycle through node_03, node_02",
            "[W009] node_04: Connections form a cycle through node_04"] := by
  have reachable : (empty.run circularHistory).Reachable := ⟨circularHistory, rfl⟩
  have nonempty : (empty.run circularHistory).nodes ≠ [] := by decide +kernel
  have connected :
      (empty.run circularHistory).StronglyConnected [[⟨5⟩], [⟨3⟩], [⟨4⟩, ⟨2⟩], [⟨0⟩]] :=
    reachable.wellFormed.stronglyConnected (by decide +kernel) (by decide) (by decide +kernel)
  have cycles : (empty.run circularHistory).cycles = [[⟨2⟩, ⟨4⟩], [⟨3⟩]] := by decide +kernel
  obtain ⟨lists, -, -, -, among, -, reports⟩ := cycles_of_reachable reachable
  rw [cycles] at lists among reports
  have analyzed := analyze_of_nodes_ne_nil nonempty
  exact ⟨reachable, (lists _).mpr rfl, connected, among _ connected, _, analyzed,
    reports _ analyzed, by decide +kernel⟩

end MotionSteps.Graph
