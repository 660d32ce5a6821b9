import MotionSteps.Proofs.Graph.SinglePath
import MotionSteps.Proofs.Program.Linked
import MotionSteps.Proofs.Step.Shape
import MotionSteps.Report.Analysis

/-!
# What a report without findings means

Each rule of the analysis is matched with what it checks: those about parameters with
clean nodes, those about the graph with single paths. `passed_of_reachable` puts them
together. A graph passes exactly when it is a single path of clean nodes, and then its
program follows the connections, although compilation looks at step order only.
-/

namespace MotionSteps

/-- Nothing is wrong with a node by itself. Its kind is known, its document raises no
issue, save that a start or an end needs none, and no value of it is pointless. -/
structure Node.Clean (node : Node) : Prop where
  known : ∀ name, node.kind ≠ .other name
  issues : ∀ issue ∈ (node.kind.extractText node.document).issues,
    issue = .missing ∧ (node.kind = .start ∨ node.kind = .finish)
  motion : node.kind = .motion → ∃ record,
    (node.kind.extractText node.document).value = .motion record ∧ ¬ Text.Blank record.axis ∧
      (record.position == 0) = false ∧ (record.speed == 0) = false
  wait : node.kind = .wait → ∃ record,
    (node.kind.extractText node.document).value = .wait record ∧ record.delay ≠ 0
  counter : node.kind = .counter → ∃ record,
    (node.kind.extractText node.document).value = .counter record ∧ ¬ Text.Blank record.name
  goto : node.kind = .goto → ∃ record,
    (node.kind.extractText node.document).value = .goto record ∧ ¬ Text.Blank record.target

/-! ## Findings about a step -/

theorem StepKind.findings_eq_nil_iff {kind : StepKind} :
    kind.findings = [] ↔ ∀ name, kind ≠ .other name := by
  cases kind <;> simp [findings]

theorem Issue.finding?_eq_none_iff {kind : StepKind} {issue : Issue} :
    issue.finding? kind = none ↔ issue = .missing ∧ (kind = .start ∨ kind = .finish) := by
  cases issue with
  | missing => cases kind <;> simp [finding?, StepKind.isTerminal]
  | malformed fault => simp [finding?]
  | invalidField field found => simp [finding?]

/-- The values of parameters of the right form raise no finding exactly when those are in
order which the kind of the step asks for. -/
theorem Params.Fits.findings_eq_nil_iff {kind : StepKind} {params : Params}
    (fits : Params.Fits kind params) :
    params.findings = [] ↔
      (kind = .motion → ∃ record, params = .motion record ∧ ¬ Text.Blank record.axis ∧
        (record.position == 0) = false ∧ (record.speed == 0) = false) ∧
      (kind = .wait → ∃ record, params = .wait record ∧ record.delay ≠ 0) ∧
      (kind = .counter → ∃ record, params = .counter record ∧ ¬ Text.Blank record.name) ∧
      (kind = .goto → ∃ record, params = .goto record ∧ ¬ Text.Blank record.target) := by
  cases fits <;> simp [Params.findings]

/-- A step raises no finding by itself exactly when its node is clean. -/
theorem Node.findings_compiled_eq_nil_iff (node : Node) (count position : Nat) :
    (node.compiled count position).findings = [] ↔ node.Clean := by
  rw [CompiledStep.findings, List.append_eq_nil_iff, List.append_eq_nil_iff,
    List.filterMap_eq_nil_iff, Node.compiled_kind, Node.compiled_params, Node.compiled_issues,
    StepKind.findings_eq_nil_iff, (node.kind.extractText_fits node.document).findings_eq_nil_iff]
  simp only [Issue.finding?_eq_none_iff]
  constructor
  · rintro ⟨⟨known, issues⟩, motion, wait, counter, goto⟩
    exact ⟨known, issues, motion, wait, counter, goto⟩
  · rintro ⟨known, issues, motion, wait, counter, goto⟩
    exact ⟨⟨known, issues⟩, motion, wait, counter, goto⟩

namespace Graph

variable {graph : Graph}

/-! ## Findings about the graph -/

theorem startFindings_eq_nil_iff :
    graph.startFindings = [] ↔ ∃ first, graph.starts = [first] := by
  unfold startFindings
  split
  · next none => simp [none]
  · next first one => simp [one]
  · next none several => simpa using several

theorem placementFindings_eq_nil_iff {line : Linearization} {reachable : List NodeId}
    {id : NodeId} :
    graph.placementFindings line reachable id = [] ↔
      id ∉ line.unreached ∧ (graph.outgoing id).length ≤ 1 := by
  rw [placementFindings, List.append_eq_nil_iff, ← mem_isUnreached_iff]
  simp

namespace WellFormed

/-- A node has the identifier of its place in step order. -/
theorem stepIdOf?_eq (wellFormed : graph.WellFormed) {position : Nat} {id : NodeId}
    (there : graph.linearize.order[position]? = some id) :
    stepIdOf? (graph.compiledSteps graph.linearize) id = some (stepId position) := by
  obtain ⟨node, held, compiled⟩ := wellFormed.compiledSteps_at there
  have distinct :
      ((graph.compiledSteps graph.linearize).map CompiledStep.node).Nodup := by
    rw [wellFormed.map_node_compiledSteps]
    exact wellFormed.order_nodup
  have found := find?_of_nodup_map distinct (List.mem_of_getElem? compiled)
  rw [Node.compiled_node, wellFormed.id_of_node? held] at found
  rw [stepIdOf?, found]
  rfl

/-- Every node has an identifier. -/
theorem exists_stepIdOf? (wellFormed : graph.WellFormed) {id : NodeId} (live : graph.Live id) :
    ∃ position, stepIdOf? (graph.compiledSteps graph.linearize) id = some (stepId position) := by
  obtain ⟨position, there⟩ := List.mem_iff_getElem?.mp (wellFormed.mem_order_iff.mpr live)
  exact ⟨position, wellFormed.stepIdOf?_eq there⟩

/-- Every listed cycle is reported, since its first node has a step. -/
theorem cycleDiagnostic?_ne_none (wellFormed : graph.WellFormed) {cycle : List NodeId}
    (listed : cycle ∈ graph.cycles) :
    cycleDiagnostic? (graph.compiledSteps graph.linearize) cycle ≠ none := by
  obtain ⟨id, member, rfl, begins⟩ := eq_component_of_mem_cycles listed
  obtain ⟨position, named⟩ := wellFormed.exists_stepIdOf? (wellFormed.mem_nodeIds_iff.mp member)
  cases members : graph.component id with
  | nil => simp [members] at begins
  | cons first rest =>
      obtain rfl : first = id := by simpa [members] using begins
      simp [cycleDiagnostic?, named]

theorem cycleDiagnostics_eq_nil_iff (wellFormed : graph.WellFormed) :
    graph.cycles.filterMap (cycleDiagnostic? (graph.compiledSteps graph.linearize)) = [] ↔
      graph.cycles = [] := by
  rw [List.filterMap_eq_nil_iff]
  constructor
  · intro silent
    refine List.eq_nil_iff_forall_not_mem.mpr ?_
    intro cycle listed
    exact wellFormed.cycleDiagnostic?_ne_none listed (silent cycle listed)
  · intro none cycle listed
    rw [none] at listed
    cases listed

/-- The steps are those of the nodes, each at its place in step order. -/
theorem mem_compiledSteps_iff (wellFormed : graph.WellFormed) {compiled : CompiledStep} :
    compiled ∈ graph.compiledSteps graph.linearize ↔
      ∃ node ∈ graph.nodes, ∃ position, graph.linearize.order[position]? = some node.id ∧
        compiled = node.compiled graph.linearize.order.length position := by
  constructor
  · intro member
    obtain ⟨position, there⟩ := List.mem_iff_getElem?.mp member
    obtain ⟨node, held, inOrder, same⟩ := wellFormed.of_compiledSteps_at there
    have origin := wellFormed.id_of_node? held
    rw [← origin] at held inOrder
    exact ⟨node, wellFormed.mem_nodes_iff.mpr held, position, inOrder, same⟩
  · rintro ⟨node, member, position, inOrder, rfl⟩
    obtain ⟨other, held, there⟩ := wellFormed.compiledSteps_at inOrder
    rw [wellFormed.mem_nodes_iff.mp member] at held
    obtain rfl := Option.some.inj held
    exact List.mem_of_getElem? there

/-- Every node has a step. -/
theorem exists_compiled_mem (wellFormed : graph.WellFormed) {node : Node}
    (member : node ∈ graph.nodes) :
    ∃ position, node.compiled graph.linearize.order.length position ∈
      graph.compiledSteps graph.linearize := by
  have live : graph.Live node.id := ⟨node, wellFormed.mem_nodes_iff.mp member⟩
  obtain ⟨position, there⟩ := List.mem_iff_getElem?.mp (wellFormed.mem_order_iff.mpr live)
  exact ⟨position, wellFormed.mem_compiledSteps_iff.mpr ⟨node, member, position, there, rfl⟩⟩

/-- No step raises a finding exactly when every node is clean, the walk misses none, and
none has several connections. -/
theorem stepFindings_eq_nil_iff (wellFormed : graph.WellFormed) (reachable : List NodeId) :
    (∀ compiled ∈ graph.compiledSteps graph.linearize, compiled.findings = [] ∧
      graph.placementFindings graph.linearize reachable compiled.node = []) ↔
      (∀ node ∈ graph.nodes, node.Clean) ∧ graph.linearize.unreached = [] ∧
        ∀ id, (graph.outgoing id).length ≤ 1 := by
  simp only [placementFindings_eq_nil_iff]
  constructor
  · intro quiet
    have quietNode : ∀ node ∈ graph.nodes, node.Clean ∧
        node.id ∉ graph.linearize.unreached ∧ (graph.outgoing node.id).length ≤ 1 := by
      intro node member
      obtain ⟨position, compiled⟩ := wellFormed.exists_compiled_mem member
      obtain ⟨clean, placed⟩ := quiet _ compiled
      exact ⟨(node.findings_compiled_eq_nil_iff _ _).mp clean, placed⟩
    refine ⟨fun node member => (quietNode node member).1, ?_, ?_⟩
    · refine List.eq_nil_iff_forall_not_mem.mpr ?_
      intro id missed
      have live := wellFormed.mem_order_iff.mp (List.mem_append_right _ missed)
      obtain ⟨node, member, rfl⟩ := wellFormed.exists_mem_nodes live
      exact (quietNode node member).2.1 missed
    · intro id
      by_cases live : graph.Live id
      · obtain ⟨node, member, rfl⟩ := wellFormed.exists_mem_nodes live
        exact (quietNode node member).2.2
      · rw [← length_successors, wellFormed.successors_eq_nil live]
        exact Nat.zero_le 1
  · rintro ⟨clean, complete, narrow⟩ compiled member
    obtain ⟨node, listed, position, -, rfl⟩ := wellFormed.mem_compiledSteps_iff.mp member
    refine ⟨(node.findings_compiled_eq_nil_iff _ _).mpr (clean node listed), ?_, narrow _⟩
    rw [complete]
    exact List.not_mem_nil

/-- Nothing is found exactly in a single path of clean nodes. -/
theorem diagnostics_eq_nil_iff (wellFormed : graph.WellFormed) :
    graph.diagnostics = [] ↔
      (∃ first route, graph.IsSinglePath first route) ∧ ∀ node ∈ graph.nodes, node.Clean := by
  simp only [diagnostics, List.append_eq_nil_iff, List.map_eq_nil_iff, List.flatMap_eq_nil_iff,
    startFindings_eq_nil_iff, wellFormed.stepFindings_eq_nil_iff,
    wellFormed.cycleDiagnostics_eq_nil_iff, wellFormed.isSinglePath_iff]
  constructor
  · rintro ⟨⟨⟨first, start⟩, clean, complete, narrow⟩, acyclic⟩
    exact ⟨⟨first, _, start, rfl, complete, narrow, acyclic⟩, clean⟩
  · rintro ⟨⟨first, _, start, -, complete, narrow, acyclic⟩, clean⟩
    exact ⟨⟨⟨first, start⟩, clean, complete, narrow⟩, acyclic⟩

end WellFormed

/-! ## Reports that pass -/

/-- The report on a graph with a node. What was found is divided by severity. -/
theorem analyze_of_nodes_ne_nil (nonempty : graph.nodes ≠ []) :
    graph.analyze = .ok
      { steps := (graph.compiledSteps graph.linearize).filterMap
          (graph.entryOf? (graph.compiledSteps graph.linearize))
        counts := KindCount.tally
          ((graph.compiledSteps graph.linearize).map fun compiled => compiled.step.kind.name)
        warnings := graph.diagnostics.filter fun diagnostic =>
          diagnostic.finding.severity = .warning
        errors := graph.diagnostics.filter fun diagnostic =>
          !decide (diagnostic.finding.severity = .warning) } := by
  have filled : graph.isEmpty = false := by simpa [isEmpty] using nonempty
  rw [analyze, filled, List.partition_eq_filter_filter]
  rfl

/-- A report passes when nothing was found, whatever its severity. -/
theorem passed_iff {report : Report} (nonempty : graph.nodes ≠ [])
    (analyzed : graph.analyze = .ok report) :
    report.passed = true ↔ graph.diagnostics = [] := by
  rw [analyze_of_nodes_ne_nil nonempty] at analyzed
  obtain rfl := Except.ok.inj analyzed
  rw [Report.passed, Bool.and_eq_true, List.isEmpty_iff, List.isEmpty_iff,
    List.filter_eq_nil_iff, List.filter_eq_nil_iff]
  constructor
  · rintro ⟨noWarning, noError⟩
    refine List.eq_nil_iff_forall_not_mem.mpr ?_
    intro diagnostic member
    exact noError diagnostic member (by simpa using noWarning diagnostic member)
  · intro nothing
    simp [nothing]

/-- A program runs along a route. It has the steps of the route's nodes in their order, and
the next step of each is the one to which the node's only connection leads. The last node
has no connection, and its step no next one. -/
structure RunsAlong (graph : Graph) (route : List NodeId) (sequence : Sequence) : Prop where
  length_eq : sequence.steps.length = route.length
  step_at : ∀ position id, route[position]? = some id → ∃ node step,
    graph.node? id = some node ∧ sequence.steps[position]? = some step ∧
      step.id = stepId position ∧ step.kind = node.kind ∧
      step.params = (node.kind.extractText node.document).value
  next_at : ∀ position id step, route[position]? = some id →
    sequence.steps[position]? = some step → position + 1 < route.length →
    ∃ connection following, graph.outgoing id = [connection] ∧
      route[position + 1]? = some connection.target ∧
      sequence.steps[position + 1]? = some following ∧ step.next = some following.id
  last_at : ∀ position id step, route[position]? = some id →
    sequence.steps[position]? = some step → position + 1 = route.length →
    graph.outgoing id = [] ∧ step.next = none

/-- The program of a single path runs along it. -/
theorem WellFormed.runsAlong (wellFormed : graph.WellFormed) {first : NodeId}
    {route : List NodeId} (path : graph.IsSinglePath first route) (name : String) :
    graph.RunsAlong route
      ⟨name, (graph.compiledSteps graph.linearize).map CompiledStep.step⟩ := by
  have numbered := wellFormed.numbered name
  have order := path.order_eq wellFormed
  have length : ((graph.compiledSteps graph.linearize).map CompiledStep.step).length =
      route.length := by
    rw [List.length_map, wellFormed.length_compiledSteps, order]
  refine ⟨length, ?_, ?_, ?_⟩
  · intro position id there
    rw [← order] at there
    exact wellFormed.exists_step_at there
  · intro position id step there stepThere further
    have behind := List.getElem?_eq_getElem further
    have leads := path.successors_eq wellFormed there
    rw [behind, Option.toList_some, successors, List.map_eq_singleton_iff] at leads
    obtain ⟨connection, only, target⟩ := leads
    rw [← length] at further
    have following := List.getElem?_eq_getElem further
    refine ⟨connection, _, only, behind.trans (congrArg some target.symm), following, ?_⟩
    rw [numbered.next_eq position step stepThere, if_pos further,
      numbered.id_eq (position + 1) _ following]
  · intro position id step there stepThere final
    have beyond : route[position + 1]? = none := List.getElem?_eq_none_iff.mpr (by omega)
    have leads := path.successors_eq wellFormed there
    rw [beyond, Option.toList_none, successors, List.map_eq_nil_iff] at leads
    exact ⟨leads, (numbered.next_eq_none_iff stepThere).mpr (final.trans length.symm)⟩

/-- What it means that a graph with a history passes. Its nodes form one route from its
only start on, its connections run from each node to the next, one each, and every node is
clean. Then, whatever the settings, the program runs along that route. -/
theorem passed_of_reachable (reachable : graph.Reachable) (nonempty : graph.nodes ≠ []) :
    ∃ report, graph.analyze = .ok report ∧
      (report.passed = true ↔
        (∃ first route, graph.IsSinglePath first route) ∧ ∀ node ∈ graph.nodes, node.Clean) ∧
      (report.passed = true → ∀ first route, graph.IsSinglePath first route →
        ∀ settings : Settings, ∃ sequence, graph.compile settings = .ok sequence ∧
          graph.RunsAlong route sequence) := by
  have wellFormed := reachable.wellFormed
  have analyzed := analyze_of_nodes_ne_nil nonempty
  refine ⟨_, analyzed, ?_, ?_⟩
  · rw [passed_iff nonempty analyzed, wellFormed.diagnostics_eq_nil_iff]
  · intro _ first route path settings
    exact ⟨_, compile_of_nodes_ne_nil settings nonempty,
      wellFormed.runsAlong path settings.sequenceName⟩

/-- A history of a graph that passes, with a branch that is taken away again and with nodes
that were not added in step order. -/
def straightHistory : List Edit := [
  .addNode { typeLabel := "END" },
  .addNode
    { typeLabel := "MOTION"
      document := some "\x7b\"axis\": \"X\", \"pos\": 2.5, \"speed\": 10\x7d" },
  .addNode { typeLabel := "START" },
  .addNode { typeLabel := "WAIT", document := some "\x7b\"delay_ms\": 5\x7d" },
  .connect ⟨2⟩ ⟨1⟩,
  .connect ⟨1⟩ ⟨3⟩,
  .connect ⟨1⟩ ⟨0⟩,
  .removeConnection ⟨2⟩,
  .connect ⟨3⟩ ⟨0⟩]

theorem passed_after_straightHistory :
    (empty.run straightHistory).Reachable ∧ (empty.run straightHistory).nodes ≠ [] ∧
      ∃ report, (empty.run straightHistory).analyze = .ok report ∧ report.passed = true ∧
        (empty.run straightHistory).IsSinglePath ⟨2⟩ [⟨2⟩, ⟨1⟩, ⟨3⟩, ⟨0⟩] ∧
        ∃ sequence, (empty.run straightHistory).compile {} = .ok sequence ∧
          (empty.run straightHistory).RunsAlong [⟨2⟩, ⟨1⟩, ⟨3⟩, ⟨0⟩] sequence := by
  have reachable : (empty.run straightHistory).Reachable := ⟨straightHistory, rfl⟩
  have nonempty : (empty.run straightHistory).nodes ≠ [] := by decide +kernel
  have nothing : (empty.run straightHistory).diagnostics = [] :=
    List.eq_nil_of_length_eq_zero (by decide +kernel)
  obtain ⟨report, analyzed, meaning, follows⟩ := passed_of_reachable reachable nonempty
  have passed := (passed_iff nonempty analyzed).mpr nothing
  obtain ⟨first, route, path⟩ := (meaning.mp passed).1
  have order : (empty.run straightHistory).linearize.order = [⟨2⟩, ⟨1⟩, ⟨3⟩, ⟨0⟩] := by
    decide +kernel
  have start : (empty.run straightHistory).starts = [⟨2⟩] := by decide +kernel
  obtain rfl := (path.order_eq reachable.wellFormed).symm.trans order
  obtain rfl : first = ⟨2⟩ := by simpa [start] using path.starts_eq.symm
  exact ⟨reachable, nonempty, report, analyzed, passed, path, follows passed _ _ path {}⟩

end Graph

end MotionSteps
