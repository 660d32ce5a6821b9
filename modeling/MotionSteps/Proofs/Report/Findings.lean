import MotionSteps.Proofs.Report.Entries

/-!
# The findings of a report

A report divides what was found by severity and keeps the order otherwise. Since the severity of
a finding shows in its code, the findings with one code stand in the order in which the analysis
found them. Those about one step come from the step itself and from the place of its node, unless
they are about a cycle. `withCode_eq` and `about_eq` state both; the lemmas on codes say which
rule can have found what.
-/

namespace MotionSteps

namespace Report

/-- What was found with a code. -/
def withCode (report : Report) (code : String) : List Diagnostic :=
  report.findings.filter fun diagnostic => diagnostic.finding.code == code

/-- What was found about a step with a code. -/
def about (report : Report) (stepId code : String) : List Diagnostic :=
  (report.findingsFor stepId).filter fun diagnostic => diagnostic.finding.code == code

theorem about_eq_filter_withCode (report : Report) (stepId code : String) :
    report.about stepId code =
      (report.withCode code).filter fun diagnostic =>
        diagnostic.place.any fun place => place.step == stepId :=
  List.filter_comm _ _ _

end Report

/-! ## Codes -/

/-- The severity of a finding shows in its code. -/
theorem Finding.severity_eq (finding : Finding) :
    finding.severity = if finding.code ∈ ["E001", "E002", "E003"] then .error else .warning := by
  cases finding <;> rfl

theorem filter_code_eq_nil {diagnostics : List Diagnostic} {code : String}
    (others : ∀ diagnostic ∈ diagnostics, diagnostic.finding.code ≠ code) :
    (diagnostics.filter fun diagnostic => diagnostic.finding.code == code) = [] := by
  simpa [List.filter_eq_nil_iff] using others

/-- The codes of findings about a step by itself: about its kind, its document and its values. -/
def ownCodes : List String :=
  ["W002", "W003", "W004", "W005", "W006", "W007", "W008", "W012", "E002", "E003"]

/-- The codes of findings about the document of a step. -/
def documentCodes : List String :=
  ["W002", "E003", "W012"]

theorem Issue.code_of_finding? {kind : StepKind} {issue : Issue} {finding : Finding}
    (found : issue.finding? kind = some finding) : finding.code ∈ documentCodes := by
  cases issue with
  | missing =>
      rw [finding?, Option.ite_none_left_eq_some] at found
      rw [← Option.some.inj found.2]
      decide
  | malformed fault => simp [← Option.some.inj found, Finding.code, documentCodes]
  | invalidField field value => simp [← Option.some.inj found, Finding.code, documentCodes]

theorem StepKind.code_of_mem_findings {kind : StepKind} {finding : Finding}
    (found : finding ∈ kind.findings) : finding.code = "W008" := by
  cases kind with
  | other name => rw [List.mem_singleton.mp found, Finding.code]
  | _ => cases found

theorem Params.code_of_mem_findings {params : Params} {finding : Finding}
    (found : finding ∈ params.findings) :
    finding.code ∈ ["W003", "W004", "W005", "W006", "W007", "E002"] := by
  cases params with
  | motion record =>
      simp only [findings, List.mem_append, List.mem_ite_nil_right, List.mem_singleton] at found
      rcases found with (⟨-, rfl⟩ | ⟨-, rfl⟩) | ⟨-, rfl⟩ <;> decide
  | wait record | counter record | goto record =>
      simp only [findings, List.mem_ite_nil_right, List.mem_singleton] at found
      obtain ⟨-, rfl⟩ := found
      decide
  | linearMove record | relativeMove record | circularMove record | passthrough record =>
      cases found

/-- A step by itself raises findings of its own codes only. -/
theorem CompiledStep.code_of_mem_findings {compiled : CompiledStep} {finding : Finding}
    (found : finding ∈ compiled.findings) : finding.code ∈ ownCodes := by
  rw [findings, List.mem_append, List.mem_append, List.mem_filterMap] at found
  rcases found with (ofKind | ⟨issue, -, ofIssue⟩) | ofParams
  · rw [StepKind.code_of_mem_findings ofKind]
    decide
  · exact (by decide : documentCodes ⊆ ownCodes) (Issue.code_of_finding? ofIssue)
  · exact (by decide : ["W003", "W004", "W005", "W006", "W007", "E002"] ⊆ ownCodes)
      (Params.code_of_mem_findings ofParams)

namespace Graph

variable {graph : Graph}

theorem code_of_mem_startFindings {finding : Finding} (found : finding ∈ graph.startFindings) :
    finding.code ∈ ["W001", "W011"] := by
  unfold startFindings at found
  split at found
  · rw [List.mem_singleton.mp found]
    decide
  · cases found
  · simp [List.mem_singleton.mp found, Finding.code]

theorem code_of_mem_placementFindings {line : Linearization} {reachable : List NodeId}
    {id : NodeId} {finding : Finding}
    (found : finding ∈ graph.placementFindings line reachable id) :
    finding.code ∈ ["E001", "W010"] := by
  simp only [placementFindings, List.mem_append, List.mem_ite_nil_right,
    List.mem_singleton] at found
  rcases found with ⟨-, rfl⟩ | ⟨-, rfl⟩ <;> simp [Finding.code]

theorem code_of_cycleDiagnostic? {steps : List CompiledStep} {cycle : List NodeId}
    {diagnostic : Diagnostic} (found : cycleDiagnostic? steps cycle = some diagnostic) :
    diagnostic.finding.code = "W009" := by
  simp only [cycleDiagnostic?, Option.bind_eq_bind, Option.bind_eq_some_iff, Option.pure_def,
    Option.some.injEq] at found
  obtain ⟨node, -, step, -, rfl⟩ := found
  rfl

/-- What is suspicious about a step and about the place of its node. -/
def stepFindings (graph : Graph) (compiled : CompiledStep) : List Finding :=
  compiled.findings ++
    graph.placementFindings graph.linearize
      ((graph.linearize.entry.map graph.reachableFrom).getD []) compiled.node

theorem code_of_mem_stepFindings {compiled : CompiledStep} {finding : Finding}
    (found : finding ∈ graph.stepFindings compiled) :
    finding.code ∈ ownCodes ++ ["E001", "W010"] := by
  rcases List.mem_append.mp found with own | placed
  · exact List.mem_append_left _ (CompiledStep.code_of_mem_findings own)
  · exact List.mem_append_right _ (code_of_mem_placementFindings placed)

/-- Findings with other codes than a step has by itself are about the place of its node. -/
theorem filter_stepFindings (compiled : CompiledStep) {code : String}
    (placed : code ∉ ownCodes) :
    ((graph.stepFindings compiled).filter fun finding => finding.code == code) =
      (graph.placementFindings graph.linearize
        ((graph.linearize.entry.map graph.reachableFrom).getD []) compiled.node).filter
          fun finding => finding.code == code := by
  have own : (compiled.findings.filter fun finding => finding.code == code) = [] := by
    refine List.filter_eq_nil_iff.mpr fun finding found same => ?_
    exact placed (beq_iff_eq.mp same ▸ CompiledStep.code_of_mem_findings found)
  rw [stepFindings, List.filter_append, own, List.nil_append]

theorem diagnostics_eq (graph : Graph) :
    graph.diagnostics =
      graph.startFindings.map (⟨·, none⟩) ++
        (graph.compiledSteps graph.linearize).flatMap (fun compiled =>
          (graph.stepFindings compiled).map (⟨·, some compiled.place⟩)) ++
        graph.cycles.filterMap (cycleDiagnostic? (graph.compiledSteps graph.linearize)) :=
  rfl

/-! ## Reports -/

theorem nodes_ne_nil_of_analyze {report : Report} (analyzed : graph.analyze = .ok report) :
    graph.nodes ≠ [] := by
  intro nothing
  simp [analyze, isEmpty, nothing] at analyzed

/-- What was found is divided by severity and keeps its order otherwise. -/
theorem warnings_eq_filter {report : Report} (analyzed : graph.analyze = .ok report) :
    report.warnings =
      graph.diagnostics.filter fun diagnostic => diagnostic.finding.severity = .warning := by
  rw [analyze_of_nodes_ne_nil (nodes_ne_nil_of_analyze analyzed)] at analyzed
  rw [← Except.ok.inj analyzed]

theorem errors_eq_filter {report : Report} (analyzed : graph.analyze = .ok report) :
    report.errors =
      graph.diagnostics.filter fun diagnostic =>
        !decide (diagnostic.finding.severity = .warning) := by
  rw [analyze_of_nodes_ne_nil (nodes_ne_nil_of_analyze analyzed)] at analyzed
  rw [← Except.ok.inj analyzed]

/-- What has one code is reported in the order in which it was found. -/
theorem withCode_eq {report : Report} (analyzed : graph.analyze = .ok report) (code : String) :
    report.withCode code =
      graph.diagnostics.filter fun diagnostic => diagnostic.finding.code == code := by
  rw [Report.withCode, Report.findings, warnings_eq_filter analyzed, errors_eq_filter analyzed]
  refine filter_append_filter_of_uniform
    ⟨decide (code ∉ ["E001", "E002", "E003"]), fun diagnostic _ same => ?_⟩
  rw [Finding.severity_eq, beq_iff_eq.mp same]
  by_cases grave : code ∈ ["E001", "E002", "E003"] <;> simp [grave]

/-- The findings with a code of the start are those about the start. -/
theorem withCode_start {report : Report} (analyzed : graph.analyze = .ok report) {code : String}
    (ofStart : code ∈ ["W001", "W011"]) :
    report.withCode code =
      (graph.startFindings.filter fun finding => finding.code == code).map (⟨·, none⟩) := by
  rw [withCode_eq analyzed, diagnostics_eq, List.append_assoc, List.filter_append, List.filter_map]
  refine List.append_right_eq_self.mpr (filter_code_eq_nil ?_)
  rintro diagnostic listed rfl
  rcases List.mem_append.mp listed with ofStep | ofCycle
  · obtain ⟨compiled, -, stems⟩ := List.mem_flatMap.mp ofStep
    obtain ⟨finding, found, rfl⟩ := List.mem_map.mp stems
    have apart : ∀ code ∈ ownCodes ++ ["E001", "W010"], code ∉ ["W001", "W011"] := by decide
    exact apart _ (code_of_mem_stepFindings found) ofStart
  · obtain ⟨cycle, -, found⟩ := List.mem_filterMap.mp ofCycle
    simp [code_of_cycleDiagnostic? found] at ofStart

/-- The findings about cycles are those of the listed cycles. -/
theorem withCode_cycle {report : Report} (analyzed : graph.analyze = .ok report) :
    report.withCode "W009" =
      graph.cycles.filterMap (cycleDiagnostic? (graph.compiledSteps graph.linearize)) := by
  rw [withCode_eq analyzed, diagnostics_eq, List.filter_append, List.filter_append,
    filter_code_eq_nil, filter_code_eq_nil, List.nil_append, List.nil_append]
  · refine List.filter_eq_self.mpr fun diagnostic listed => ?_
    obtain ⟨cycle, -, found⟩ := List.mem_filterMap.mp listed
    exact beq_iff_eq.mpr (code_of_cycleDiagnostic? found)
  · intro diagnostic listed same
    obtain ⟨compiled, -, stems⟩ := List.mem_flatMap.mp listed
    obtain ⟨finding, found, rfl⟩ := List.mem_map.mp stems
    exact absurd (same ▸ code_of_mem_stepFindings found) (by decide)
  · intro diagnostic listed same
    obtain ⟨finding, found, rfl⟩ := List.mem_map.mp listed
    exact absurd (same ▸ code_of_mem_startFindings found) (by decide)

/-- What is found with codes that no rule about the start or about cycles gives are findings
about the steps, in step order. -/
theorem filter_diagnostics (graph : Graph) (selected : String → Bool)
    (ofSteps : ∀ code ∈ ["W001", "W009", "W011"], selected code = false) :
    (graph.diagnostics.filter fun diagnostic => selected diagnostic.finding.code) =
      (graph.compiledSteps graph.linearize).flatMap fun compiled =>
        ((graph.stepFindings compiled).filter fun finding => selected finding.code).map
          (⟨·, some compiled.place⟩) := by
  have ofStart : (graph.startFindings.map (⟨·, none⟩ : Finding → Diagnostic)).filter
      (fun diagnostic => selected diagnostic.finding.code) = [] := by
    refine List.filter_eq_nil_iff.mpr fun diagnostic listed => ?_
    obtain ⟨finding, found, rfl⟩ := List.mem_map.mp listed
    rw [ofSteps _ ((by decide : ["W001", "W011"] ⊆ ["W001", "W009", "W011"])
      (code_of_mem_startFindings found))]
    exact Bool.false_ne_true
  have ofCycles : (graph.cycles.filterMap
      (cycleDiagnostic? (graph.compiledSteps graph.linearize))).filter
      (fun diagnostic => selected diagnostic.finding.code) = [] := by
    refine List.filter_eq_nil_iff.mpr fun diagnostic listed => ?_
    obtain ⟨cycle, -, found⟩ := List.mem_filterMap.mp listed
    rw [code_of_cycleDiagnostic? found, ofSteps _ (by decide)]
    exact Bool.false_ne_true
  rw [diagnostics_eq, List.filter_append, List.filter_append, ofStart, ofCycles,
    List.nil_append, List.append_nil, List.filter_flatMap]
  simp only [List.filter_map, Function.comp_def]

/-- The findings with a code that no rule about the start or about cycles gives are those of
the steps, in step order. -/
theorem withCode_eq_flatMap {report : Report} (analyzed : graph.analyze = .ok report)
    {code : String} (ofSteps : code ∉ ["W001", "W009", "W011"]) :
    report.withCode code =
      (graph.compiledSteps graph.linearize).flatMap fun compiled =>
        ((graph.stepFindings compiled).filter fun finding => finding.code == code).map
          (⟨·, some compiled.place⟩) := by
  rw [withCode_eq analyzed]
  refine filter_diagnostics graph (· == code) fun other listed => ?_
  exact beq_false_of_ne fun same => ofSteps (same ▸ listed)

/-- The name of a node's step in a report. The entry of the step stands at the place of the node
in step order. -/
def Names (graph : Graph) (report : Report) (id : NodeId) (name : String) : Prop :=
  ∃ (position : Nat) (entry : StepEntry), graph.linearize.order[position]? = some id ∧
    report.steps[position]? = some entry ∧ entry.stepId = name

namespace WellFormed

/-- The entry at the place of a node bears the identifier of that place. -/
theorem names_iff (wellFormed : graph.WellFormed) {report : Report}
    (analyzed : graph.analyze = .ok report) {id : NodeId} {name : String} :
    graph.Names report id name ↔
      ∃ position, graph.linearize.order[position]? = some id ∧ name = stepId position := by
  rw [analyze_of_nodes_ne_nil (nodes_ne_nil_of_analyze analyzed)] at analyzed
  obtain rfl := Except.ok.inj analyzed
  have entry_at : ∀ {position : Nat}, graph.linearize.order[position]? = some id →
      ∃ entry, ((graph.compiledSteps graph.linearize).filterMap
        (graph.entryOf? (graph.compiledSteps graph.linearize)))[position]? = some entry ∧
        entry.stepId = stepId position := by
    intro position there
    obtain ⟨node, held, compiled⟩ := wellFormed.compiledSteps_at there
    rw [wellFormed.getElem?_entries, compiled, Option.bind_some, entryOf?, Node.compiled_node,
      wellFormed.id_of_node? held, held]
    exact ⟨_, rfl, rfl⟩
  constructor
  · rintro ⟨position, entry, there, entryThere, rfl⟩
    obtain ⟨other, otherThere, named⟩ := entry_at there
    rw [entryThere] at otherThere
    obtain rfl := Option.some.inj otherThere
    exact ⟨position, there, named⟩
  · rintro ⟨position, there, rfl⟩
    obtain ⟨entry, entryThere, named⟩ := entry_at there
    exact ⟨position, entry, there, entryThere, named⟩

theorem live_of_names (wellFormed : graph.WellFormed) {report : Report} {id : NodeId}
    {name : String} (named : graph.Names report id name) : graph.Live id := by
  obtain ⟨position, -, there, -⟩ := named
  exact wellFormed.live_of_mem_order id (List.mem_of_getElem? there)

/-- Every node has a step, and its name is the one that findings use. -/
theorem exists_names (wellFormed : graph.WellFormed) {report : Report}
    (analyzed : graph.analyze = .ok report) {id : NodeId} (live : graph.Live id) :
    ∃ name, stepIdOf? (graph.compiledSteps graph.linearize) id = some name ∧
      graph.Names report id name := by
  obtain ⟨position, there⟩ := List.mem_iff_getElem?.mp (wellFormed.mem_order_iff.mpr live)
  exact ⟨stepId position, wellFormed.stepIdOf?_eq there,
    (wellFormed.names_iff analyzed).mpr ⟨position, there, rfl⟩⟩

/-- The step of a node is there under its name. -/
theorem exists_place (wellFormed : graph.WellFormed) {report : Report}
    (analyzed : graph.analyze = .ok report) {id : NodeId} {name : String}
    (named : graph.Names report id name) :
    ∃ compiled ∈ graph.compiledSteps graph.linearize, compiled.place = ⟨name, id⟩ := by
  obtain ⟨position, there, rfl⟩ := (wellFormed.names_iff analyzed).mp named
  obtain ⟨node, held, compiled⟩ := wellFormed.compiledSteps_at there
  refine ⟨_, List.mem_of_getElem? compiled, ?_⟩
  rw [CompiledStep.place, Node.compiled_id, Node.compiled_node, wellFormed.id_of_node? held]

/-- A step is named by its identifier. -/
theorem names_of_mem (wellFormed : graph.WellFormed) {report : Report}
    (analyzed : graph.analyze = .ok report) {compiled : CompiledStep}
    (member : compiled ∈ graph.compiledSteps graph.linearize) :
    graph.Names report compiled.node compiled.step.id := by
  obtain ⟨position, there⟩ := List.mem_iff_getElem?.mp member
  obtain ⟨node, -, inOrder, same⟩ := wellFormed.of_compiledSteps_at there
  refine (wellFormed.names_iff analyzed).mpr ⟨position, inOrder, ?_⟩
  rw [same, Node.compiled_id]

/-- Every entry of a report is that of some node. -/
theorem exists_names_of_mem_steps (wellFormed : graph.WellFormed) {report : Report}
    (analyzed : graph.analyze = .ok report) {entry : StepEntry} (member : entry ∈ report.steps) :
    ∃ id, graph.Names report id entry.stepId := by
  have described := analyzed
  rw [analyze_of_nodes_ne_nil (nodes_ne_nil_of_analyze analyzed)] at described
  rw [← Except.ok.inj described] at member
  obtain ⟨compiled, listed, entered⟩ := List.mem_filterMap.mp member
  obtain ⟨node, -, rfl⟩ := Option.map_eq_some_iff.mp entered
  exact ⟨compiled.node, wellFormed.names_of_mem analyzed listed⟩

/-- The findings about a step with a code that no rule about the start or about cycles gives
come from the step and from the place of its node. -/
theorem about_of_mem (wellFormed : graph.WellFormed) {report : Report}
    (analyzed : graph.analyze = .ok report) {code : String}
    (ofSteps : code ∉ ["W001", "W009", "W011"]) {compiled : CompiledStep}
    (member : compiled ∈ graph.compiledSteps graph.linearize) :
    report.about compiled.step.id code =
      ((graph.stepFindings compiled).filter fun finding => finding.code == code).map
        (⟨·, some compiled.place⟩) := by
  have distinct := (wellFormed.numbered "").ids_nodup
  rw [List.map_map] at distinct
  rw [Report.about_eq_filter_withCode, withCode_eq_flatMap analyzed ofSteps]
  refine filter_flatMap_of_nodup_map distinct member fun other _ result stems => ?_
  obtain ⟨finding, -, rfl⟩ := List.mem_map.mp stems
  rfl

/-- The findings about the step of a node, under its name. -/
theorem about_eq (wellFormed : graph.WellFormed) {report : Report}
    (analyzed : graph.analyze = .ok report) {code : String}
    (ofSteps : code ∉ ["W001", "W009", "W011"]) {id : NodeId} {name : String}
    (named : graph.Names report id name) :
    ∃ compiled ∈ graph.compiledSteps graph.linearize, compiled.node = id ∧
      report.about name code =
        ((graph.stepFindings compiled).filter fun finding => finding.code == code).map
          (⟨·, some ⟨name, id⟩⟩) := by
  obtain ⟨compiled, member, placed⟩ := wellFormed.exists_place analyzed named
  obtain rfl : compiled.step.id = name := congrArg Place.step placed
  refine ⟨compiled, member, congrArg Place.node placed, ?_⟩
  rw [wellFormed.about_of_mem analyzed ofSteps member, placed]

/-- What is found with such a code is found about some step. -/
theorem exists_mem_about (wellFormed : graph.WellFormed) {report : Report}
    (analyzed : graph.analyze = .ok report) {code : String}
    (ofSteps : code ∉ ["W001", "W009", "W011"]) {diagnostic : Diagnostic}
    (found : diagnostic ∈ report.withCode code) :
    ∃ id name, graph.Names report id name ∧ diagnostic ∈ report.about name code := by
  have stems := found
  rw [withCode_eq_flatMap analyzed ofSteps] at stems
  obtain ⟨compiled, member, ofStep⟩ := List.mem_flatMap.mp stems
  obtain ⟨finding, -, rfl⟩ := List.mem_map.mp ofStep
  refine ⟨compiled.node, compiled.step.id, wellFormed.names_of_mem analyzed member, ?_⟩
  rw [Report.about_eq_filter_withCode]
  exact List.mem_filter.mpr ⟨found, beq_self_eq_true compiled.step.id⟩

end WellFormed

end Graph

end MotionSteps
