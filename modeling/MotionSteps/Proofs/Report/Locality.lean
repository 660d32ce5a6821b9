import MotionSteps.Proofs.Graph.Handles
import MotionSteps.Proofs.Graph.Reach
import MotionSteps.Proofs.Graph.Renaming
import MotionSteps.Proofs.Report.Cycles

/-!
# What a new document leaves alone

A new document changes the parameters of one step, and may change the label of its node. All else
is where it was. The step order and the cycles look at handles, kinds and connections only, so
`AgreeUnless` goes from the nodes to the steps, and from the steps to the entries of a report.
What is found about other steps, about the start, about cycles and about the place of the node
among the others is found again, in the same order. `setDocument_of_reachable` states this of
every graph with a history.
-/

namespace MotionSteps

/-- Two values agree in what `frame` shows of them, and altogether unless the first is `touched`. -/
structure AgreeUnless {α β : Type} (frame : α → β) (touched : α → Prop) (before after : α) :
    Prop where
  frame_eq : frame after = frame before
  eq_of_untouched : ¬touched before → after = before

/-- A node without its document and its label. -/
def Node.frame (node : Node) : NodeId × String × PlanePoint × Ports :=
  (node.id, node.typeLabel, node.position, node.ports)

/-- A step without its parameters. -/
def Step.frame (step : Step) : String × StepKind × Option String :=
  (step.id, step.kind, step.next)

/-- A compiled step without its parameters and what was wrong with them. -/
def CompiledStep.frame (compiled : CompiledStep) : NodeId × String × StepKind × Option String :=
  (compiled.node, compiled.step.frame)

/-- An entry without the label, the parameters and whether there is a document. -/
def StepEntry.frame (entry : StepEntry) : String × StepKind × String × Outgoing :=
  (entry.stepId, entry.kind, entry.typeLabel, entry.outgoing)

/-- A finding is not about the document of a node: it is about another node or about none, or
about the place of a node among the others. -/
def Diagnostic.outside (id : NodeId) (diagnostic : Diagnostic) : Bool :=
  diagnostic.place.all (fun place => place.node != id) ||
    decide (diagnostic.finding.code ∈ ["E001", "W009", "W010"])

theorem AgreeUnless.place_eq {touched : CompiledStep → Prop} {before after : CompiledStep}
    (agree : AgreeUnless CompiledStep.frame touched before after) : after.place = before.place := by
  have frame := agree.frame_eq
  simp only [CompiledStep.frame, Step.frame, Prod.mk.injEq] at frame
  rw [CompiledStep.place, CompiledStep.place, frame.1, frame.2.1]

/-- Two programs differ in the parameters of one step at most. -/
structure Sequence.SameOutside (name : String) (before after : Sequence) : Prop where
  name_eq : after.name = before.name
  steps : List.Forall₂ (AgreeUnless Step.frame fun step => step.id = name)
    before.steps after.steps

/-- Two reports differ in what depends on the document of one node at most. -/
structure Report.SameOutside (id : NodeId) (name : String) (before after : Report) : Prop where
  steps : List.Forall₂ (AgreeUnless StepEntry.frame fun entry => entry.stepId = name)
    before.steps after.steps
  counts_eq : after.counts = before.counts
  warnings_eq : after.warnings.filter (Diagnostic.outside id) =
    before.warnings.filter (Diagnostic.outside id)
  errors_eq : after.errors.filter (Diagnostic.outside id) =
    before.errors.filter (Diagnostic.outside id)

namespace Graph

/-- Two graphs differ in the document and the label of one node at most. -/
structure SameOutside (id : NodeId) (before after : Graph) : Prop where
  connections_eq : after.connections = before.connections
  nodes : List.Forall₂ (AgreeUnless Node.frame fun node => node.id = id)
    before.nodes after.nodes
  node? : ∀ other, Option.Rel (AgreeUnless Node.frame fun node => node.id = id)
    (before.node? other) (after.node? other)

variable {graph : Graph}

/-- A new document changes nothing else about its node. -/
theorem WellFormed.sameOutside_setDocument (wellFormed : graph.WellFormed) {id : NodeId}
    {document : Option String} {after : Graph}
    (changed : graph.setDocument id document = .ok after) :
    graph.SameOutside id after := by
  obtain ⟨-, rfl⟩ := setDocument_eq_ok_iff.mp changed
  constructor
  case connections_eq => rfl
  case nodes =>
    change List.Forall₂ _ graph.nodes (graph.nodeArena.modify id.index _).toList
    rw [wellFormed.nodes_modify, List.forall₂_map_right_iff, List.forall₂_same]
    intro node _
    split
    · next here => exact ⟨rfl, fun untouched => absurd here untouched⟩
    · exact ⟨rfl, fun _ => rfl⟩
  case node? =>
    intro other
    rw [node?, node?, Arena.get?_modify]
    cases held : graph.nodeArena.get? other.index with
    | none => split <;> exact .none
    | some node =>
        split
        · next here =>
            refine .some ⟨rfl, fun untouched => absurd ?_ untouched⟩
            exact (wellFormed.id_of_node? held).trans (NodeId.ext here.symm)
        · exact .some ⟨rfl, fun _ => rfl⟩

namespace SameOutside

variable {id : NodeId} {before after : Graph}

/-! ## Step order and cycles -/

section

variable (same : before.SameOutside id after)

include same

theorem nodeIds_eq : after.nodeIds = before.nodeIds :=
  map_eq_map_of_forall₂ same.nodes fun _ _ agree => congrArg (fun frame => frame.1) agree.frame_eq

theorem nodes_ne_nil (nonempty : before.nodes ≠ []) : after.nodes ≠ [] := by
  intro nothing
  have none := same.nodeIds_eq
  rw [nodeIds, nodeIds, nothing, List.map_nil] at none
  exact nonempty (List.map_eq_nil_iff.mp none.symm)

theorem outgoing_eq (other : NodeId) : after.outgoing other = before.outgoing other := by
  rw [outgoing, outgoing, same.connections_eq]

theorem successors_eq (other : NodeId) : after.successors other = before.successors other := by
  rw [successors, successors, same.outgoing_eq]

/-- No handle changes, and a linearization looks at nothing else that does. -/
theorem renames : Renames before after fun other => other where
  nodes_eq := by
    refine map_eq_map_of_forall₂ same.nodes fun node changed agree => ?_
    have frame := agree.frame_eq
    simp only [Node.frame, Prod.mk.injEq] at frame
    rw [Node.kind, Node.kind, frame.1, frame.2.1]
  leads_eq other _ := by
    rw [firstSuccessor?, firstSuccessor?, same.successors_eq, Option.map_id']

theorem starts_eq : after.starts = before.starts := by
  rw [same.renames.starts_eq, List.map_id']

theorem startFindings_eq : after.startFindings = before.startFindings := by
  rw [startFindings, startFindings, same.starts_eq]

theorem linearize_eq (wellFormed : before.WellFormed) (wellFormedAfter : after.WellFormed) :
    after.linearize = before.linearize := by
  have chain := same.renames.chain_eq wellFormed wellFormedAfter
  have unreached := same.renames.unreached_eq wellFormed wellFormedAfter
  have entry : after.linearize.entry = before.linearize.entry := by
    rw [linearize_entry, linearize_entry, same.starts_eq]
  rw [List.map_id'] at chain unreached
  rw [show after.linearize = ⟨after.linearize.entry, after.linearize.chain,
    after.linearize.unreached⟩ from rfl, entry, chain, unreached]

theorem reachableFrom_eq (other : NodeId) :
    after.reachableFrom other = before.reachableFrom other := by
  rw [reachableFrom, reachableFrom, inOrder, inOrder, same.nodeIds_eq,
    collect_congr same.successors_eq]

theorem cycles_eq : after.cycles = before.cycles := by
  have descendants : ∀ other, after.descendants other = before.descendants other := by
    intro other
    rw [Graph.descendants, Graph.descendants, inOrder, inOrder, same.nodeIds_eq,
      collect_congr same.successors_eq, same.successors_eq]
  simp only [cycles, same.nodeIds_eq, descendants]

end

/-! ## Steps -/

section

variable (same : before.SameOutside id after)

include same

theorem forall₂_compiledSteps (line : Linearization) :
    List.Forall₂ (AgreeUnless CompiledStep.frame fun compiled => compiled.node = id)
      (before.compiledSteps line) (after.compiledSteps line) := by
  refine List.rel_filterMap ?_ (List.forall₂_same.mpr fun _ _ => rfl)
  rintro ⟨other, position⟩ _ rfl
  change Option.Rel _ ((before.node? other).map _) ((after.node? other).map _)
  have agree := same.node? other
  generalize before.node? other = held, after.node? other = heldAfter at agree ⊢
  cases agree with
  | none => exact .none
  | @some node changed agree =>
      have frame := agree.frame_eq
      simp only [Node.frame, Prod.mk.injEq] at frame
      refine .some ⟨?_, fun untouched => ?_⟩
      · simp only [CompiledStep.frame, Step.frame, Node.compiled, Node.kind, frame]
      · rw [agree.eq_of_untouched untouched]

end

/-! ## Findings -/

section

variable (same : before.SameOutside id after) (wellFormed : before.WellFormed)
  (wellFormedAfter : after.WellFormed)

include same wellFormed wellFormedAfter

theorem forall₂_compiledSteps_linearize :
    List.Forall₂ (AgreeUnless CompiledStep.frame fun compiled => compiled.node = id)
      (before.compiledSteps before.linearize) (after.compiledSteps after.linearize) := by
  rw [same.linearize_eq wellFormed wellFormedAfter]
  exact same.forall₂_compiledSteps before.linearize

/-- The identifiers of the steps do not change. -/
theorem stepIdOf?_eq (other : NodeId) :
    stepIdOf? (after.compiledSteps after.linearize) other =
      stepIdOf? (before.compiledSteps before.linearize) other := by
  have spelled : ∀ steps : List CompiledStep, stepIdOf? steps other =
      ((steps.map CompiledStep.place).find? fun place => place.node == other).map Place.step := by
    intro steps
    rw [List.find?_map, Option.map_map]
    rfl
  have places : (after.compiledSteps after.linearize).map CompiledStep.place =
      (before.compiledSteps before.linearize).map CompiledStep.place :=
    map_eq_map_of_forall₂ (same.forall₂_compiledSteps_linearize wellFormed wellFormedAfter)
      fun _ _ agree => agree.place_eq
  rw [spelled, spelled, places]

theorem placementFindings_eq (other : NodeId) :
    after.placementFindings after.linearize
        ((after.linearize.entry.map after.reachableFrom).getD []) other =
      before.placementFindings before.linearize
        ((before.linearize.entry.map before.reachableFrom).getD []) other := by
  rw [same.linearize_eq wellFormed wellFormedAfter, funext same.reachableFrom_eq,
    placementFindings, placementFindings, same.outgoing_eq]

theorem cycleDiagnostics_eq :
    after.cycles.filterMap (cycleDiagnostic? (after.compiledSteps after.linearize)) =
      before.cycles.filterMap (cycleDiagnostic? (before.compiledSteps before.linearize)) := by
  have names := funext (same.stepIdOf?_eq wellFormed wellFormedAfter)
  have found : cycleDiagnostic? (after.compiledSteps after.linearize) =
      cycleDiagnostic? (before.compiledSteps before.linearize) := by
    funext cycle
    rw [cycleDiagnostic?, cycleDiagnostic?, names]
  rw [same.cycles_eq, found]

/-- What a step of another node is found to be, and the place of any node, is found again. -/
theorem filter_stepFindings_eq {compiled changed : CompiledStep}
    (agree : AgreeUnless CompiledStep.frame (fun compiled => compiled.node = id) compiled changed) :
    ((after.stepFindings changed).map (⟨·, some changed.place⟩)).filter (Diagnostic.outside id) =
      ((before.stepFindings compiled).map (⟨·, some compiled.place⟩)).filter
        (Diagnostic.outside id) := by
  have node : changed.node = compiled.node := congrArg Place.node agree.place_eq
  have placed := same.placementFindings_eq wellFormed wellFormedAfter compiled.node
  by_cases touched : compiled.node = id
  · have own : ∀ step : CompiledStep,
        (step.findings.map (⟨·, some compiled.place⟩)).filter (Diagnostic.outside id) = [] := by
      intro step
      refine List.filter_eq_nil_iff.mpr fun diagnostic listed => ?_
      obtain ⟨finding, found, rfl⟩ := List.mem_map.mp listed
      have apart : ∀ code ∈ ownCodes, code ∉ ["E001", "W009", "W010"] := by decide
      simp [Diagnostic.outside, CompiledStep.place, touched,
        apart _ (CompiledStep.code_of_mem_findings found)]
    rw [stepFindings, stepFindings, List.map_append, List.map_append, List.filter_append,
      List.filter_append, agree.place_eq, own, own, node, placed]
  · rw [agree.eq_of_untouched touched, stepFindings, stepFindings, placed]

/-- All that does not come from the document of the node is found again, in the same order. -/
theorem filter_diagnostics_eq :
    after.diagnostics.filter (Diagnostic.outside id) =
      before.diagnostics.filter (Diagnostic.outside id) := by
  have ofSteps := map_eq_map_of_forall₂
    (same.forall₂_compiledSteps_linearize wellFormed wellFormedAfter)
    fun _ _ => same.filter_stepFindings_eq wellFormed wellFormedAfter
  rw [diagnostics_eq, diagnostics_eq, same.startFindings_eq,
    same.cycleDiagnostics_eq wellFormed wellFormedAfter]
  simp only [List.filter_append]
  rw [List.filter_flatMap, List.filter_flatMap, List.flatMap_def, List.flatMap_def, ofSteps]

/-! ## Programs and reports -/

theorem outgoingOf_eq {node changed : Node} (frame : changed.frame = node.frame) :
    after.outgoingOf (after.compiledSteps after.linearize) changed =
      before.outgoingOf (before.compiledSteps before.linearize) node := by
  simp only [Node.frame, Prod.mk.injEq] at frame
  simp only [outgoingOf, frame, same.outgoing_eq, same.stepIdOf?_eq wellFormed wellFormedAfter]

variable {name : String}
  (named : ∀ compiled ∈ before.compiledSteps before.linearize,
    compiled.node = id → compiled.step.id = name)

include named

theorem sameOutside_sequence (settings : Settings) :
    Sequence.SameOutside name
      ⟨settings.sequenceName, (before.compiledSteps before.linearize).map CompiledStep.step⟩
      ⟨settings.sequenceName, (after.compiledSteps after.linearize).map CompiledStep.step⟩ where
  name_eq := rfl
  steps := by
    rw [List.forall₂_map_left_iff, List.forall₂_map_right_iff]
    refine ((List.forall₂_and_left _ _).mpr ⟨named,
      same.forall₂_compiledSteps_linearize wellFormed wellFormedAfter⟩).imp ?_
    rintro compiled changed ⟨named, agree⟩
    refine ⟨congrArg Prod.snd agree.frame_eq, fun other => ?_⟩
    rw [agree.eq_of_untouched fun touched => other (named touched)]

theorem forall₂_entries :
    List.Forall₂ (AgreeUnless StepEntry.frame fun entry => entry.stepId = name)
      ((before.compiledSteps before.linearize).filterMap
        (before.entryOf? (before.compiledSteps before.linearize)))
      ((after.compiledSteps after.linearize).filterMap
        (after.entryOf? (after.compiledSteps after.linearize))) := by
  refine List.rel_filterMap ?_ ((List.forall₂_and_left _ _).mpr ⟨named,
    same.forall₂_compiledSteps_linearize wellFormed wellFormedAfter⟩)
  rintro compiled changed ⟨named, agree⟩
  have agreeNode := same.node? compiled.node
  rw [entryOf?, entryOf?, show changed.node = compiled.node from
    congrArg Place.node agree.place_eq]
  generalize held : before.node? compiled.node = found, after.node? compiled.node = foundAfter
    at agreeNode ⊢
  cases agreeNode with
  | none => exact .none
  | @some node changedNode agreeNode =>
      have leads := same.outgoingOf_eq wellFormed wellFormedAfter agreeNode.frame_eq
      have stepFrame := agree.frame_eq
      have nodeFrame := agreeNode.frame_eq
      simp only [CompiledStep.frame, Step.frame, Prod.mk.injEq] at stepFrame
      simp only [Node.frame, Prod.mk.injEq] at nodeFrame
      refine .some ⟨?_, fun other => ?_⟩
      · simp only [StepEntry.frame, leads, stepFrame, nodeFrame]
      · have untouched : compiled.node ≠ id := fun touched => other (named touched)
        have untouchedNode : node.id ≠ id := by rwa [wellFormed.id_of_node? held]
        obtain rfl := agree.eq_of_untouched untouched
        obtain rfl := agreeNode.eq_of_untouched untouchedNode
        simp only [leads]

/-- The report differs in the entry of one step, and in what is found about its document. -/
theorem sameOutside_report {reportBefore reportAfter : Report}
    (analyzed : before.analyze = .ok reportBefore)
    (analyzedAfter : after.analyze = .ok reportAfter) :
    Report.SameOutside id name reportBefore reportAfter := by
  rw [analyze_of_nodes_ne_nil (nodes_ne_nil_of_analyze analyzed)] at analyzed
  rw [analyze_of_nodes_ne_nil (nodes_ne_nil_of_analyze analyzedAfter)] at analyzedAfter
  obtain rfl := Except.ok.inj analyzed
  obtain rfl := Except.ok.inj analyzedAfter
  constructor
  case steps => exact same.forall₂_entries wellFormed wellFormedAfter named
  case counts_eq =>
    have kinds : (after.compiledSteps after.linearize).map (fun compiled =>
        compiled.step.kind.name) = (before.compiledSteps before.linearize).map fun compiled =>
          compiled.step.kind.name :=
      map_eq_map_of_forall₂ (same.forall₂_compiledSteps_linearize wellFormed wellFormedAfter)
        fun _ _ agree => congrArg (fun frame => frame.2.2.1.name) agree.frame_eq
    exact congrArg KindCount.tally kinds
  case warnings_eq =>
    rw [List.filter_comm, same.filter_diagnostics_eq wellFormed wellFormedAfter, List.filter_comm]
  case errors_eq =>
    rw [List.filter_comm, same.filter_diagnostics_eq wellFormed wellFormedAfter, List.filter_comm]

end

end SameOutside

/-- Only the step of a node bears its name. -/
theorem WellFormed.stepId_eq_of_names (wellFormed : graph.WellFormed) {report : Report}
    (analyzed : graph.analyze = .ok report) {id : NodeId} {name : String}
    (named : graph.Names report id name) {compiled : CompiledStep}
    (member : compiled ∈ graph.compiledSteps graph.linearize) (here : compiled.node = id) :
    compiled.step.id = name := by
  obtain ⟨position, there, rfl⟩ := (wellFormed.names_iff analyzed).mp named
  obtain ⟨other, otherThere⟩ := List.mem_iff_getElem?.mp member
  obtain ⟨node, -, inOrder, same⟩ := wellFormed.of_compiledSteps_at otherThere
  have found := wellFormed.stepIdOf?_eq inOrder
  rw [here, wellFormed.stepIdOf?_eq there] at found
  rw [same, Node.compiled_id, Option.some.inj found]

/-- A new document is local. On a handle that leads to no node it is refused and changes nothing.
Otherwise the step order of a graph with a history stays as it is. The program keeps its length
and the identifiers, kinds and following steps of all steps, and only the parameters of the step
of the node may differ. The report keeps the entries of all other steps, the counts of kinds and
where each node leads. In the same order as before, it keeps all that is found about the start,
about cycles, about other steps and about the place of the node among the others. -/
theorem setDocument_of_reachable (reachable : graph.Reachable) (id : NodeId)
    (document : Option String) :
    (¬graph.Live id → graph.setDocument id document = .error (.unknownNode id) ∧
      graph.apply (.setDocument id document) = graph) ∧
    (graph.Live id → ∃ after report reportAfter name,
      graph.setDocument id document = .ok after ∧ after.linearize = graph.linearize ∧
      graph.analyze = .ok report ∧ graph.Names report id name ∧
      (∀ settings, ∃ sequence sequenceAfter, graph.compile settings = .ok sequence ∧
        after.compile settings = .ok sequenceAfter ∧
        sequence.SameOutside name sequenceAfter) ∧
      after.analyze = .ok reportAfter ∧ report.SameOutside id name reportAfter) := by
  have wellFormed := reachable.wellFormed
  constructor
  · intro dead
    have absent : graph.node? id = none := by
      rw [Option.eq_none_iff_forall_ne_some]
      exact fun node held => dead ⟨node, held⟩
    exact ⟨setDocument_of_absent absent document,
      apply_of_fails ⟨_, setDocument_of_absent absent document⟩⟩
  · intro live
    obtain ⟨after, changed⟩ : ∃ after, graph.setDocument id document = .ok after :=
      ⟨_, setDocument_eq_ok_iff.mpr ⟨live, rfl⟩⟩
    have same := wellFormed.sameOutside_setDocument changed
    have wellFormedAfter : after.WellFormed := by
      obtain ⟨-, rfl⟩ := setDocument_eq_ok_iff.mp changed
      exact wellFormed.setDocument id document
    have nonempty : graph.nodes ≠ [] := by
      obtain ⟨node, member, -⟩ := wellFormed.exists_mem_nodes live
      exact List.ne_nil_of_mem member
    have analyzed := analyze_of_nodes_ne_nil nonempty
    have analyzedAfter := analyze_of_nodes_ne_nil (same.nodes_ne_nil nonempty)
    obtain ⟨name, -, named⟩ := wellFormed.exists_names analyzed live
    have only : ∀ compiled ∈ graph.compiledSteps graph.linearize,
        compiled.node = id → compiled.step.id = name :=
      fun _ member => wellFormed.stepId_eq_of_names analyzed named member
    refine ⟨after, _, _, name, changed, same.linearize_eq wellFormed wellFormedAfter, analyzed,
      named, fun settings => ?_, analyzedAfter,
      same.sameOutside_report wellFormed wellFormedAfter only analyzed analyzedAfter⟩
    exact ⟨_, _, compile_of_nodes_ne_nil settings nonempty,
      compile_of_nodes_ne_nil settings (same.nodes_ne_nil nonempty),
      same.sameOutside_sequence wellFormed wellFormedAfter only settings⟩

/-- The node with the new document is on a cycle, and the walk passes it. -/
theorem setDocument_after_circularHistory :
    (empty.run circularHistory).Reachable ∧
      (empty.run circularHistory).setDocument ⟨1⟩ (some "\x7b\x7d") =
        .error (.unknownNode ⟨1⟩) ∧
      ∃ after report reportAfter name,
        (empty.run circularHistory).setDocument ⟨2⟩
          (some "\x7b\"axis\": \"X\", \"position\": 5, \"label\": \"lift\"\x7d") = .ok after ∧
        (empty.run circularHistory).analyze = .ok report ∧ after.analyze = .ok reportAfter ∧
        report.SameOutside ⟨2⟩ name reportAfter ∧
        (report.findingsFor "node_03").map (fun diagnostic => diagnostic.finding.code) =
          ["W002", "W003", "W004", "W005", "W009"] ∧
        (reportAfter.findingsFor "node_03").map (fun diagnostic => diagnostic.finding.code) =
          ["W005", "W009"] := by
  have reachable : (empty.run circularHistory).Reachable := ⟨circularHistory, rfl⟩
  have dead : ¬(empty.run circularHistory).Live ⟨1⟩ := by
    rintro ⟨node, held⟩
    have absent : (empty.run circularHistory).node? ⟨1⟩ = none := by decide +kernel
    cases absent.symm.trans held
  have live : (empty.run circularHistory).Live ⟨2⟩ :=
    Option.isSome_iff_exists.mp (by decide +kernel)
  obtain ⟨after, report, reportAfter, name, changed, -, analyzed, -, -, analyzedAfter, same⟩ :=
    (setDocument_of_reachable reachable ⟨2⟩
      (some "\x7b\"axis\": \"X\", \"position\": 5, \"label\": \"lift\"\x7d")).2 live
  obtain ⟨refused, -⟩ :=
    (setDocument_of_reachable reachable ⟨1⟩ (some "\x7b\x7d")).1 dead
  refine ⟨reachable, refused, after, report, reportAfter, name, changed, analyzed, analyzedAfter,
    same, ?_, ?_⟩
  · rw [analyze_of_nodes_ne_nil (by decide +kernel)] at analyzed
    rw [← Except.ok.inj analyzed]
    decide +kernel
  · obtain ⟨-, rfl⟩ := setDocument_eq_ok_iff.mp changed
    rw [analyze_of_nodes_ne_nil (by decide +kernel)] at analyzedAfter
    rw [← Except.ok.inj analyzedAfter]
    decide +kernel

end Graph

end MotionSteps
