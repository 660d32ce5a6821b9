import MotionSteps.Proofs.Report.Findings
import MotionSteps.Proofs.Step.Defaults

/-!
# Findings about documents

The issues of a document become findings about its step, and no other rule gives their codes.
`ReportsDocument` says what is found when a document is missing, when it is given up and when
single fields of it are wrong. `documents_of_reachable` states this of every step of a report,
and that the findings stand in the order of the steps.
-/

namespace MotionSteps

/-- What a report says about the document of a node, whose step has a name. Steps at which a
program begins or ends need no document. -/
structure Report.ReportsDocument (report : Report) (node : Node) (name : String)
    (outcome : Except Issue Json.Members) : Prop where
  missing : outcome = .error .missing → report.about name "W002" =
    if node.kind = .start ∨ node.kind = .finish then []
    else [⟨.noDocument, some ⟨name, node.id⟩⟩]
  notMissing : outcome ≠ .error .missing → report.about name "W002" = []
  malformed : ∀ fault, outcome = .error (.malformed fault) →
    report.about name "E003" = [⟨.malformedDocument fault, some ⟨name, node.id⟩⟩]
  notMalformed : (∀ fault, outcome ≠ .error (.malformed fault)) → report.about name "E003" = []
  /-- Every invalid field is reported once, in order. -/
  invalidFields : ∀ members, outcome = .ok members → List.Forall₂
    (fun issue diagnostic => ∃ field found, issue = .invalidField field found ∧
      diagnostic = ⟨.invalidField field found, some ⟨name, node.id⟩⟩)
    (node.kind.extractText node.document).issues (report.about name "W012")
  noFields : ∀ issue, outcome = .error issue → report.about name "W012" = []

/-- A missing document is found unless the step begins or ends a program. -/
theorem Issue.missing_finding? (kind : StepKind) :
    Issue.missing.finding? kind =
      if kind = .start ∨ kind = .finish then none else some .noDocument := by
  rw [finding?]
  cases kind <;> simp [StepKind.isTerminal]

/-- The findings that the issues of a document amount to. -/
def StepKind.documentFindings (kind : StepKind) (document : Option String) : List Finding :=
  (kind.extractText document).issues.filterMap (Issue.finding? kind)

namespace StepKind

variable {kind : StepKind} {document : Option String}

/-- A document that is given up amounts to what its one issue does. -/
theorem documentFindings_of_error {issue : Issue} (reads : ReadsAs document (.error issue)) :
    kind.documentFindings document = (issue.finding? kind).toList := by
  obtain ⟨outcome, -, only, gets⟩ := kind.extraction_of_reading document
  obtain rfl := only _ reads
  rw [documentFindings, (gets.givenUp issue rfl).1]
  cases found : issue.finding? kind <;> simp [found]

/-- The members of a document amount to one finding for each invalid field. -/
theorem documentFindings_of_ok {members : Json.Members} (reads : ReadsAs document (.ok members)) :
    List.Forall₂
      (fun issue finding => ∃ field found, issue = .invalidField field found ∧
        finding = .invalidField field found)
      (kind.extractText document).issues (kind.documentFindings document) := by
  obtain ⟨outcome, -, only, gets⟩ := kind.extraction_of_reading document
  obtain rfl := only _ reads
  refine forall₂_filterMap fun issue raised => ?_
  obtain ⟨field, found, rfl⟩ := (gets.members members rfl).2 issue raised
  exact ⟨_, rfl, field, found, rfl, rfl⟩

theorem code_of_mem_documentFindings {members : Json.Members} {finding : Finding}
    (reads : ReadsAs document (.ok members)) (found : finding ∈ kind.documentFindings document) :
    finding.code = "W012" := by
  obtain ⟨outcome, -, only, gets⟩ := kind.extraction_of_reading document
  obtain rfl := only _ reads
  obtain ⟨issue, raised, same⟩ := List.mem_filterMap.mp found
  obtain ⟨field, value, rfl⟩ := (gets.members members rfl).2 issue raised
  rw [← Option.some.inj same, Finding.code]

/-- One document is missing or wrong in its fields, but not both. -/
theorem filter_documentFindings_warning (kind : StepKind) (document : Option String) :
    ((kind.documentFindings document).filter fun finding => finding.code ∈ ["W002", "W012"]) =
      ((kind.documentFindings document).filter fun finding => finding.code == "W002") ++
        (kind.documentFindings document).filter fun finding => finding.code == "W012" := by
  obtain ⟨outcome, reads, -⟩ := kind.extraction_of_reading document
  cases outcome with
  | error issue =>
      rw [documentFindings_of_error reads]
      cases found : issue.finding? kind with
      | none => rfl
      | some finding => cases finding <;> rfl
  | ok members =>
      have codes : ∀ finding ∈ kind.documentFindings document, finding.code = "W012" :=
        fun finding => code_of_mem_documentFindings reads
      rw [List.filter_eq_self.mpr, List.filter_eq_nil_iff.mpr, List.nil_append,
        List.filter_eq_self.mpr]
      all_goals
        intro finding found
        simp [codes finding found]

end StepKind

namespace Graph

variable {graph : Graph}

/-- Only the document of a step gives findings with the codes of documents. -/
theorem filter_stepFindings_document (node : Node) (count position : Nat)
    (selected : String → Bool) (ofDocuments : ∀ code, selected code = true → code ∈ documentCodes) :
    ((graph.stepFindings (node.compiled count position)).filter
        fun finding => selected finding.code) =
      (node.kind.documentFindings node.document).filter fun finding => selected finding.code := by
  have others : ∀ {findings : List Finding},
      (∀ finding ∈ findings, finding.code ∉ documentCodes) →
      (findings.filter fun finding => selected finding.code) = [] := by
    intro findings apart
    refine List.filter_eq_nil_iff.mpr fun finding found chosen => ?_
    exact apart finding found (ofDocuments _ chosen)
  have ofKind := others fun finding (found : finding ∈ node.kind.findings) => by
    rw [StepKind.code_of_mem_findings found]
    decide
  have ofParams := others fun finding
      (found : finding ∈ (node.compiled count position).step.params.findings) =>
    (by decide : ∀ code ∈ ["W003", "W004", "W005", "W006", "W007", "E002"],
      code ∉ documentCodes) _ (Params.code_of_mem_findings found)
  have ofPlace := others fun finding (found : finding ∈ graph.placementFindings graph.linearize
      ((graph.linearize.entry.map graph.reachableFrom).getD [])
      (node.compiled count position).node) =>
    (by decide : ∀ code ∈ ["E001", "W010"], code ∉ documentCodes) _
      (code_of_mem_placementFindings found)
  rw [stepFindings, CompiledStep.findings, List.filter_append, List.filter_append,
    List.filter_append, ofParams, ofPlace, List.append_nil, List.append_nil, Node.compiled_kind,
    Node.compiled_issues, ofKind, List.nil_append]
  rfl

/-- The warnings about documents stand in step order, like all that is found about steps. -/
theorem filter_warnings {report : Report} (analyzed : graph.analyze = .ok report) :
    (report.warnings.filter fun diagnostic => diagnostic.finding.code ∈ documentCodes) =
      graph.diagnostics.filter fun diagnostic => diagnostic.finding.code ∈ ["W002", "W012"] := by
  rw [warnings_eq_filter analyzed, List.filter_filter]
  refine List.filter_congr fun diagnostic _ => ?_
  cases diagnostic.finding <;> rfl

theorem filter_errors {report : Report} (analyzed : graph.analyze = .ok report) :
    (report.errors.filter fun diagnostic => diagnostic.finding.code ∈ documentCodes) =
      graph.diagnostics.filter fun diagnostic => diagnostic.finding.code == "E003" := by
  rw [errors_eq_filter analyzed, List.filter_filter]
  refine List.filter_congr fun diagnostic _ => ?_
  cases diagnostic.finding <;> rfl

namespace WellFormed

variable {report : Report}

/-- What is found about the document of a node is found about its step. -/
theorem about_document (wellFormed : graph.WellFormed) (analyzed : graph.analyze = .ok report)
    {code : String} (ofDocument : code ∈ documentCodes) {id : NodeId} {name : String} {node : Node}
    (held : graph.node? id = some node) (named : graph.Names report id name) :
    report.about name code =
      ((node.kind.documentFindings node.document).filter fun finding => finding.code == code).map
        (⟨·, some ⟨name, id⟩⟩) := by
  have ofSteps : code ∉ ["W001", "W009", "W011"] :=
    (by decide : ∀ code ∈ documentCodes, code ∉ ["W001", "W009", "W011"]) code ofDocument
  obtain ⟨compiled, member, rfl, about⟩ := wellFormed.about_eq analyzed ofSteps named
  obtain ⟨position, there⟩ := List.mem_iff_getElem?.mp member
  obtain ⟨other, heldToo, -, same⟩ := wellFormed.of_compiledSteps_at there
  obtain rfl := Option.some.inj (held.symm.trans heldToo)
  rw [about, same]
  refine congrArg _ (filter_stepFindings_document node _ _ (· == code) ?_)
  intro other chosen
  rwa [beq_iff_eq.mp chosen]

/-- The report says of each document what it comes to. The cases are those of its reading. -/
theorem reportsDocument (wellFormed : graph.WellFormed) (analyzed : graph.analyze = .ok report)
    {id : NodeId} {name : String} {node : Node} (held : graph.node? id = some node)
    (named : graph.Names report id name) {outcome : Except Issue Json.Members}
    (reads : ReadsAs node.document outcome) : report.ReportsDocument node name outcome := by
  obtain rfl := wellFormed.id_of_node? held
  have missing :=
    wellFormed.about_document analyzed (show "W002" ∈ documentCodes by decide) held named
  have malformed :=
    wellFormed.about_document analyzed (show "E003" ∈ documentCodes by decide) held named
  have invalid :=
    wellFormed.about_document analyzed (show "W012" ∈ documentCodes by decide) held named
  cases outcome with
  | error issue =>
      rw [StepKind.documentFindings_of_error reads] at missing malformed invalid
      cases issue with
      | missing =>
          rw [Issue.missing_finding?] at missing malformed invalid
          constructor
          · intro _
            rw [missing]
            split <;> rfl
          · exact fun other => absurd rfl other
          · nofun
          · intro _
            rw [malformed]
            split <;> rfl
          · nofun
          · intro _ _
            rw [invalid]
            split <;> rfl
      | malformed fault =>
          constructor
          · nofun
          · exact fun _ => missing
          · intro other same
            cases same
            exact malformed
          · exact fun other => absurd rfl (other fault)
          · nofun
          · exact fun _ _ => invalid
      | invalidField field found => exact absurd reads ReadsAs.not_invalidField
  | ok members =>
      have codes : ∀ finding ∈ node.kind.documentFindings node.document, finding.code = "W012" :=
        fun finding => StepKind.code_of_mem_documentFindings reads
      rw [List.filter_eq_nil_iff.mpr fun finding found => by simp [codes finding found]]
        at missing malformed
      rw [List.filter_eq_self.mpr fun finding found => by simp [codes finding found]] at invalid
      constructor
      · nofun
      · exact fun _ => missing
      · nofun
      · exact fun _ => malformed
      · intro _ _
        rw [invalid, List.forall₂_map_right_iff]
        refine (StepKind.documentFindings_of_ok reads).imp ?_
        rintro issue finding ⟨field, found, rfl, rfl⟩
        exact ⟨field, found, rfl, rfl⟩
      · nofun

/-- The entries of a report bear the identifiers of the steps. -/
theorem map_stepId_steps (wellFormed : graph.WellFormed) (analyzed : graph.analyze = .ok report) :
    report.steps.map StepEntry.stepId =
      (graph.compiledSteps graph.linearize).map fun compiled => compiled.step.id := by
  rw [analyze_of_nodes_ne_nil (nodes_ne_nil_of_analyze analyzed)] at analyzed
  rw [← Except.ok.inj analyzed, List.map_filterMap, ← List.filterMap_eq_map]
  refine List.filterMap_congr fun compiled member => ?_
  obtain ⟨position, there⟩ := List.mem_iff_getElem?.mp member
  obtain ⟨node, held, -, -⟩ := wellFormed.of_compiledSteps_at there
  rw [entryOf?, held]
  rfl

/-- What is found about documents with some codes is found at one step after the other, if it is
at every step. -/
theorem filter_diagnostics_document (wellFormed : graph.WellFormed)
    (analyzed : graph.analyze = .ok report) (selected : String → Bool)
    (ofDocuments : ∀ code, selected code = true → code ∈ documentCodes)
    (atStep : String → List Diagnostic)
    (each : ∀ id name node, graph.node? id = some node → graph.Names report id name →
      atStep name = ((node.kind.documentFindings node.document).filter
        fun finding => selected finding.code).map (⟨·, some ⟨name, id⟩⟩)) :
    (graph.diagnostics.filter fun diagnostic => selected diagnostic.finding.code) =
      report.steps.flatMap fun entry => atStep entry.stepId := by
  have ofSteps : ∀ code ∈ ["W001", "W009", "W011"], selected code = false := by
    intro code other
    refine Bool.eq_false_iff.mpr fun chosen => ?_
    exact (by decide : ∀ code ∈ ["W001", "W009", "W011"], code ∉ documentCodes) code other
      (ofDocuments code chosen)
  calc (graph.diagnostics.filter fun diagnostic => selected diagnostic.finding.code)
      = (graph.compiledSteps graph.linearize).flatMap fun compiled =>
          ((graph.stepFindings compiled).filter fun finding => selected finding.code).map
            (⟨·, some compiled.place⟩) := filter_diagnostics graph selected ofSteps
    _ = (graph.compiledSteps graph.linearize).flatMap fun compiled =>
          atStep compiled.step.id := by
        refine List.flatMap_congr fun compiled member => ?_
        obtain ⟨position, there⟩ := List.mem_iff_getElem?.mp member
        obtain ⟨node, held, -, same⟩ := wellFormed.of_compiledSteps_at there
        rw [each _ _ node held (wellFormed.names_of_mem analyzed member), CompiledStep.place]
        rw [same, filter_stepFindings_document node _ _ selected ofDocuments]
    _ = report.steps.flatMap fun entry => atStep entry.stepId := by
        have ids := congrArg (List.flatMap atStep) (wellFormed.map_stepId_steps analyzed)
        rw [List.flatMap_map, List.flatMap_map] at ids
        exact ids.symm

end WellFormed

/-- What becomes of bad documents. Each document, for each kind of step, is read in one way, and
one that is given up gives defaults and one issue. In the report on a graph with a history the
document of every node is reported at its step as it reads. The warnings about documents stand
in the order of the steps, and so do the errors, and no other is about a document. -/
theorem documents_of_reachable (reachable : graph.Reachable) :
    (∀ (kind : StepKind) (document : Option String), ∃ outcome, ReadsAs document outcome ∧
      (∀ other, ReadsAs document other → other = outcome) ∧
      kind.GetsFrom outcome (kind.extractText document)) ∧
    (graph.nodes ≠ [] → ∃ report, graph.analyze = .ok report) ∧
      ∀ report, graph.analyze = .ok report →
        (∀ id, graph.Live id → ∃ name, graph.Names report id name) ∧
        (∀ entry ∈ report.steps, ∃ id, graph.Names report id entry.stepId) ∧
        (∀ id name node outcome, graph.node? id = some node → graph.Names report id name →
          ReadsAs node.document outcome → report.ReportsDocument node name outcome) ∧
        (report.warnings.filter fun diagnostic => diagnostic.finding.code ∈ documentCodes) =
          (report.steps.flatMap fun entry =>
            report.about entry.stepId "W002" ++ report.about entry.stepId "W012") ∧
        (report.errors.filter fun diagnostic => diagnostic.finding.code ∈ documentCodes) =
          report.steps.flatMap fun entry => report.about entry.stepId "E003" := by
  have wellFormed := reachable.wellFormed
  refine ⟨StepKind.extraction_of_reading,
    fun nonempty => ⟨_, analyze_of_nodes_ne_nil nonempty⟩, fun report analyzed => ?_⟩
  refine ⟨fun id live => ?_, fun _ => wellFormed.exists_names_of_mem_steps analyzed,
    fun _ _ _ _ held named => wellFormed.reportsDocument analyzed held named, ?_, ?_⟩
  · obtain ⟨name, -, named⟩ := wellFormed.exists_names analyzed live
    exact ⟨name, named⟩
  · rw [filter_warnings analyzed]
    refine wellFormed.filter_diagnostics_document analyzed
      (fun code => code ∈ ["W002", "W012"]) ?_
      (fun name => report.about name "W002" ++ report.about name "W012") ?_
    · intro code chosen
      exact (by decide : ["W002", "W012"] ⊆ documentCodes) (of_decide_eq_true chosen)
    · intro id name node held named
      rw [StepKind.filter_documentFindings_warning, List.map_append,
        wellFormed.about_document analyzed (by decide) held named,
        wellFormed.about_document analyzed (by decide) held named]
  · rw [filter_errors analyzed]
    refine wellFormed.filter_diagnostics_document analyzed (· == "E003") ?_
      (fun name => report.about name "E003") ?_
    · intro code chosen
      rw [beq_iff_eq.mp chosen]
      decide
    · intro id name node held named
      exact wellFormed.about_document analyzed (by decide) held named

/-- A history of steps whose documents are missing, blank, cut off, no objects or wrong in some
fields. -/
def carelessHistory : List Edit := [
  .addNode { typeLabel := "START" },
  .addNode { typeLabel := "WAIT", document := some " \t\n" },
  .addNode { typeLabel := "ARC", document := some "\x7b\"center\": \x7b\"X\": 1" },
  .addNode { typeLabel := "COUNTER",
             document := some "\x7b\"name\": [], \"target\": \"many\", \"initial\": 2\x7d" },
  .addNode { typeLabel := "PAUSE" },
  .addNode { typeLabel := "END", document := some "[1]" },
  .addNode { typeLabel := "END" }]

theorem documents_after_carelessHistory :
    (empty.run carelessHistory).Reachable ∧ (empty.run carelessHistory).nodes ≠ [] ∧
      ∃ report, (empty.run carelessHistory).analyze = .ok report ∧
        (∀ id name node outcome, (empty.run carelessHistory).node? id = some node →
          (empty.run carelessHistory).Names report id name → ReadsAs node.document outcome →
          report.ReportsDocument node name outcome) ∧
        ((report.warnings.filter fun diagnostic =>
          diagnostic.finding.code ∈ documentCodes).map Diagnostic.display) =
            ["[W002] node_02: Step has no parameter data; defaults used",
              "[W012] node_04: Field 'name' has invalid value []; default used",
              "[W012] node_04: Field 'target' has invalid value \"many\"; default used",
              "[W002] node_05: Step has no parameter data; defaults used"] ∧
        ((report.errors.filter fun diagnostic =>
          diagnostic.finding.code ∈ documentCodes).map fun diagnostic =>
            (diagnostic.finding.code, diagnostic.place)) =
            [("E003", some ⟨"node_03", ⟨2⟩⟩), ("E003", some ⟨"node_06", ⟨5⟩⟩)] := by
  have reachable : (empty.run carelessHistory).Reachable := ⟨carelessHistory, rfl⟩
  have nonempty : (empty.run carelessHistory).nodes ≠ [] := by decide +kernel
  have analyzed := analyze_of_nodes_ne_nil nonempty
  obtain ⟨-, -, reports⟩ := documents_of_reachable reachable
  exact ⟨reachable, nonempty, _, analyzed, (reports _ analyzed).2.2.1, by decide +kernel,
    by decide +kernel⟩

end Graph

end MotionSteps
