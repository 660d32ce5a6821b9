import MotionSteps.Proofs.Graph.Reachability
import MotionSteps.Proofs.Report.Findings

/-!
# Findings about the place of a node

A step is reported as unconnected when the walk from the entry misses its node, and the report
tells whether an ignored branch leads there. A path to a missed node leaves the walk at a node
with several connections, and that is reported too. `placement_of_reachable` states this of
every graph with a history.
-/

namespace MotionSteps

/-- The two messages about an unconnected node differ. -/
theorem Finding.message_unconnected (branch : Bool) :
    ((Finding.unconnected branch).message =
        "Unconnected node: only reachable from START through an ignored branch" ↔
      branch = true) ∧
    ((Finding.unconnected branch).message = "Unconnected node: not reachable from START" ↔
      ¬branch = true) := by
  cases branch <;> decide

namespace Graph

/-- What a report says about whether the walk from an entry comes to a node, whose step has a
name. A node that is missed is reported once. -/
structure ReportsWalk (graph : Graph) (report : Report) (entry id : NodeId) (name : String) :
    Prop where
  walked : id ∈ graph.linearize.chain → report.about name "E001" = []
  missed : id ∉ graph.linearize.chain → ∃ diagnostic,
    report.about name "E001" = [diagnostic] ∧ diagnostic.place = some ⟨name, id⟩ ∧
      diagnostic.finding.severity = .error ∧
      (diagnostic.finding.message =
          "Unconnected node: only reachable from START through an ignored branch" ↔
        Relation.ReflTransGen graph.Leads entry id) ∧
      (diagnostic.finding.message = "Unconnected node: not reachable from START" ↔
        ¬ Relation.ReflTransGen graph.Leads entry id)

/-- What a report says about the connections that leave a node, whose step has a name. Several
of them are reported once. -/
structure ReportsBranches (graph : Graph) (report : Report) (id : NodeId) (name : String) :
    Prop where
  several : 2 ≤ (graph.outgoing id).length → ∃ diagnostic,
    report.about name "W010" = [diagnostic] ∧ diagnostic.place = some ⟨name, id⟩
  few : (graph.outgoing id).length < 2 → report.about name "W010" = []

variable {graph : Graph}

/-! ## Findings about a place -/

theorem filter_stepFindings_unconnected (compiled : CompiledStep) :
    ((graph.stepFindings compiled).filter fun finding => finding.code == "E001") =
      if compiled.node ∈ graph.linearize.unreached then
        [.unconnected (((graph.linearize.entry.map graph.reachableFrom).getD []).contains
          compiled.node)]
      else [] := by
  rw [filter_stepFindings compiled (by decide), placementFindings, List.filter_append]
  simp only [← mem_isUnreached_iff]
  split <;> split <;> rfl

theorem filter_stepFindings_fanOut (compiled : CompiledStep) :
    ((graph.stepFindings compiled).filter fun finding => finding.code == "W010") =
      if 1 < (graph.outgoing compiled.node).length then
        [.fanOut (graph.outgoing compiled.node).length]
      else [] := by
  rw [filter_stepFindings compiled (by decide), placementFindings, List.filter_append]
  split <;> split <;> rfl

/-- Without an entry no step is reported as unconnected. -/
theorem withCode_unconnected_eq_nil {report : Report} (analyzed : graph.analyze = .ok report)
    (nowhere : graph.starts = []) : report.withCode "E001" = [] := by
  have complete : graph.linearize.unreached = [] := by
    rw [linearize_of_no_start (by rw [nowhere]; rfl)]
  rw [withCode_eq_flatMap analyzed (by decide)]
  refine List.flatMap_eq_nil_iff.mpr fun compiled _ => ?_
  rw [filter_stepFindings_unconnected, complete, if_neg List.not_mem_nil, List.map_nil]

namespace WellFormed

variable {report : Report} {id : NodeId} {name : String}

/-- Several connections of a node are reported at its step. -/
theorem reportsBranches (wellFormed : graph.WellFormed) (analyzed : graph.analyze = .ok report)
    (named : graph.Names report id name) : graph.ReportsBranches report id name := by
  have ofSteps : "W010" ∉ ["W001", "W009", "W011"] := by decide
  obtain ⟨compiled, -, rfl, about⟩ := wellFormed.about_eq analyzed ofSteps named
  rw [filter_stepFindings_fanOut] at about
  constructor
  · intro several
    rw [if_pos (by omega)] at about
    exact ⟨_, about, rfl⟩
  · intro few
    rwa [if_neg (by omega)] at about

/-- A node that the walk misses is reported at its step. Whether the message is that of an
ignored branch depends on what the search from the entry finds. -/
theorem reportsWalk (wellFormed : graph.WellFormed) (analyzed : graph.analyze = .ok report)
    {entry : NodeId} (first : graph.starts.head? = some entry)
    (named : graph.Names report id name) : graph.ReportsWalk report entry id name := by
  have ofSteps : "E001" ∉ ["W001", "W009", "W011"] := by decide
  have member := wellFormed.mem_nodeIds_iff.mpr (wellFormed.live_of_names named)
  have entryLive := wellFormed.start_live (List.mem_of_mem_head? first)
  obtain ⟨compiled, -, rfl, about⟩ := wellFormed.about_eq analyzed ofSteps named
  rw [filter_stepFindings_unconnected, unreached_eq, linearize_entry, first] at about
  constructor
  · intro walked
    rwa [if_neg (by simp [walked])] at about
  · intro missed
    rw [if_pos (by simp [member, missed])] at about
    refine ⟨_, about, rfl, rfl, ?_⟩
    have found : compiled.node ∈ graph.reachableFrom entry ↔
        Relation.ReflTransGen graph.Leads entry compiled.node := by
      rw [wellFormed.mem_reachableFrom_iff, and_iff_right entryLive]
    rw [← found, ← List.contains_iff_mem, Option.map_some, Option.getD_some]
    exact Finding.message_unconnected _

/-- If an ignored branch leads to a node, several connections of a node of the walk are
reported. -/
theorem exists_reported_branch (wellFormed : graph.WellFormed)
    (analyzed : graph.analyze = .ok report) {entry : NodeId}
    (first : graph.starts.head? = some entry) (named : graph.Names report id name)
    {diagnostic : Diagnostic} (about : diagnostic ∈ report.about name "E001")
    (ignored : diagnostic.finding.message =
      "Unconnected node: only reachable from START through an ignored branch") :
    ∃ other ∈ graph.linearize.chain, ∃ otherName, graph.Names report other otherName ∧
      ∃ branches, report.about otherName "W010" = [branches] := by
  obtain ⟨walked, missed⟩ := wellFormed.reportsWalk analyzed first named
  by_cases member : id ∈ graph.linearize.chain
  · rw [walked member] at about
    cases about
  · obtain ⟨only, same, -, -, branch, -⟩ := missed member
    rw [same, List.mem_singleton] at about
    subst about
    have walk := wellFormed.isFirstWalk_chain (linearize_entry.trans first)
    obtain ⟨other, onWalk, several⟩ := walk.exists_branch (branch.mp ignored) member
    have live := wellFormed.mem_nodeIds_iff.mp (mem_nodeIds_of_mem_chain onWalk)
    obtain ⟨otherName, -, otherNamed⟩ := wellFormed.exists_names analyzed live
    obtain ⟨branches, reported, -⟩ :=
      (wellFormed.reportsBranches analyzed otherNamed).several several
    exact ⟨other, onWalk, otherName, otherNamed, branches, reported⟩

end WellFormed

/-- What the report on a graph with a history says about the places of its nodes. Each node has
a step there and each step a node. Several connections of a node are reported at its step. With
an entry a step is reported once, with the message that fits, exactly when the walk misses its
node, and if an ignored branch leads to one of them, several connections are reported at a step
of the walk. Without an entry no step is reported as unconnected. -/
theorem placement_of_reachable (reachable : graph.Reachable) :
    (graph.nodes ≠ [] → ∃ report, graph.analyze = .ok report) ∧
      ∀ report, graph.analyze = .ok report →
        (∀ id, graph.Live id → ∃ name, graph.Names report id name) ∧
        (∀ entry ∈ report.steps, ∃ id, graph.Names report id entry.stepId) ∧
        (∀ id name, graph.Names report id name → graph.ReportsBranches report id name) ∧
        (graph.starts = [] → report.withCode "E001" = []) ∧
        ∀ entry, graph.starts.head? = some entry →
          graph.IsFirstWalk entry graph.linearize.chain ∧
          (∀ id name, graph.Names report id name → graph.ReportsWalk report entry id name) ∧
          ∀ diagnostic ∈ report.withCode "E001",
            (∃ id name, graph.Names report id name ∧
              diagnostic ∈ report.about name "E001") ∧
            (diagnostic.finding.message =
                "Unconnected node: only reachable from START through an ignored branch" →
              ∃ id ∈ graph.linearize.chain, ∃ name, graph.Names report id name ∧
                ∃ branches, report.about name "W010" = [branches]) := by
  have wellFormed := reachable.wellFormed
  refine ⟨fun nonempty => ⟨_, analyze_of_nodes_ne_nil nonempty⟩, fun report analyzed => ?_⟩
  refine ⟨fun id live => ?_, fun _ => wellFormed.exists_names_of_mem_steps analyzed,
    fun _ _ => wellFormed.reportsBranches analyzed, withCode_unconnected_eq_nil analyzed,
    fun entry first => ?_⟩
  · obtain ⟨name, -, named⟩ := wellFormed.exists_names analyzed live
    exact ⟨name, named⟩
  refine ⟨wellFormed.isFirstWalk_chain (linearize_entry.trans first),
    fun _ _ => wellFormed.reportsWalk analyzed first, fun diagnostic found => ?_⟩
  obtain ⟨id, name, named, about⟩ := wellFormed.exists_mem_about analyzed (by decide) found
  exact ⟨⟨id, name, named, about⟩,
    wellFormed.exists_reported_branch analyzed first named about⟩

/-- A history of a graph whose walk closes a circle, with an ignored branch from the walk to a
node and on from there, and with a node that no connection comes to. -/
def branchingHistory : List Edit := [
  .addNode { typeLabel := "COUNTER" },
  .addNode { typeLabel := "START" },
  .addNode { typeLabel := "WAIT" },
  .addNode { typeLabel := "MOTION" },
  .addNode { typeLabel := "GOTO" },
  .addNode { typeLabel := "PAUSE" },
  .removeNode ⟨0⟩,
  .connect ⟨1⟩ ⟨2⟩,
  .connect ⟨2⟩ ⟨2⟩,
  .connect ⟨2⟩ ⟨3⟩,
  .connect ⟨3⟩ ⟨4⟩]

theorem placement_after_branchingHistory :
    (empty.run branchingHistory).Reachable ∧ (empty.run branchingHistory).nodes ≠ [] ∧
      ∃ report, (empty.run branchingHistory).analyze = .ok report ∧
        (empty.run branchingHistory).IsFirstWalk ⟨1⟩ [⟨1⟩, ⟨2⟩] ∧
        (∀ id name, (empty.run branchingHistory).Names report id name →
          (empty.run branchingHistory).ReportsWalk report ⟨1⟩ id name) ∧
        (report.withCode "E001").map Diagnostic.display =
          ["[E001] node_03: Unconnected node: only reachable from START through an ignored branch",
            "[E001] node_04: Unconnected node: only reachable from START through an ignored branch",
            "[E001] node_05: Unconnected node: not reachable from START"] ∧
        (report.withCode "W010").map Diagnostic.display =
          ["[W010] node_02: Output has 2 connections; only the first is followed"] := by
  have reachable : (empty.run branchingHistory).Reachable := ⟨branchingHistory, rfl⟩
  have nonempty : (empty.run branchingHistory).nodes ≠ [] := by decide +kernel
  have first : (empty.run branchingHistory).starts.head? = some ⟨1⟩ := by decide +kernel
  have chain : (empty.run branchingHistory).linearize.chain = [⟨1⟩, ⟨2⟩] := by decide +kernel
  have analyzed := analyze_of_nodes_ne_nil nonempty
  obtain ⟨-, -, -, -, entered⟩ := (placement_of_reachable reachable).2 _ analyzed
  obtain ⟨walk, walks, -⟩ := entered ⟨1⟩ first
  rw [chain] at walk
  exact ⟨reachable, nonempty, _, analyzed, walk, walks, by decide +kernel, by decide +kernel⟩

end Graph

end MotionSteps
