import MotionSteps.Proofs.Report.Cycles
import MotionSteps.Proofs.Report.Documents

/-!
# Where findings belong

What a report lists is divided by severity, but the order in which it was found shows. The
finding about the start comes first and stands at no step. Those about steps follow in step order,
warnings and errors alike, and those about cycles come last. `Arranges` says so, and that every
finding but the first stands at a node of the graph under the name of its step. So the finding
about the start and what was found about each step are all that was found.
-/

namespace MotionSteps

/-- A finding stands at a step if it is about the step whose entry has that position. -/
def Report.StandsAt (report : Report) (position : Nat) (diagnostic : Diagnostic) : Prop :=
  ∃ entry, report.steps[position]? = some entry ∧
    diagnostic.place.map Place.step = some entry.stepId

/-- Two findings are in step order if the first stands at the step of the second or before it. -/
def Report.InStepOrder (report : Report) (first second : Diagnostic) : Prop :=
  ∃ position later, position ≤ later ∧ report.StandsAt position first ∧
    report.StandsAt later second

namespace Graph

/-- How the findings of a report are arranged and what they are about. -/
structure Arranges (graph : Graph) (report : Report) (ofStart ofSteps ofCycles : List Diagnostic) :
    Prop where
  warnings_eq : report.warnings = ofStart ++ ofSteps ++ ofCycles
  warning_code : ∀ diagnostic ∈ report.warnings, diagnostic.finding.code.toList.head? = some 'W'
  error_code : ∀ diagnostic ∈ report.errors, diagnostic.finding.code.toList.head? = some 'E'
  /-- There is one finding about the start unless there is exactly one start. -/
  codes_ofStart : ofStart.map (fun diagnostic => diagnostic.finding.code) =
    match graph.starts.length with
    | 0 => ["W001"]
    | 1 => []
    | _ => ["W011"]
  /-- It is the only one that is not about a step. -/
  unplaced_eq : (report.findings.filter fun diagnostic => diagnostic.place.isNone) = ofStart
  codes_ofSteps : ∀ diagnostic ∈ ofSteps, diagnostic.finding.code ≠ "W009"
  codes_ofCycles : ∀ diagnostic ∈ ofCycles, diagnostic.finding.code = "W009"
  names : ∀ diagnostic ∈ report.findings, ∀ place, diagnostic.place = some place →
    graph.Live place.node ∧ graph.Names report place.node place.step
  stepIds_nodup : (report.steps.map StepEntry.stepId).Nodup
  ofSteps_ordered : ofSteps.Pairwise report.InStepOrder
  errors_ordered : report.errors.Pairwise report.InStepOrder
  /-- Nothing is lost and nothing is counted twice. -/
  findings_perm : (ofStart ++ report.steps.flatMap fun entry =>
    report.findingsFor entry.stepId).Perm report.findings

variable {graph : Graph}

/-! ## Codes -/

/-- The letter of a code tells the severity. -/
theorem head?_code (finding : Finding) :
    finding.code.toList.head? = some (if finding.severity = .warning then 'W' else 'E') := by
  cases finding <;> simp [Finding.code, Finding.severity]

theorem codes_startFindings :
    graph.startFindings.map Finding.code =
      match graph.starts.length with
      | 0 => ["W001"]
      | 1 => []
      | _ => ["W011"] := by
  unfold startFindings
  match graph.starts with
  | [] => rfl
  | [_] => rfl
  | _ :: _ :: _ => rfl

/-- What is found about the start and about cycles are warnings. -/
theorem severity_eq_warning {finding : Finding} (code : finding.code ∈ ["W001", "W009", "W011"]) :
    finding.severity = .warning := by
  rw [Finding.severity_eq, if_neg]
  exact (by decide : ∀ code ∈ ["W001", "W009", "W011"], code ∉ ["E001", "E002", "E003"]) _ code

/-! ## What is found about the steps -/

/-- What is found about the steps, in the order of the steps. -/
def stepDiagnostics (graph : Graph) : List Diagnostic :=
  (graph.compiledSteps graph.linearize).flatMap fun compiled =>
    (graph.stepFindings compiled).map (⟨·, some compiled.place⟩)

theorem mem_stepDiagnostics_iff {diagnostic : Diagnostic} :
    diagnostic ∈ graph.stepDiagnostics ↔
      ∃ compiled ∈ graph.compiledSteps graph.linearize, ∃ finding ∈ graph.stepFindings compiled,
        diagnostic = ⟨finding, some compiled.place⟩ := by
  simp only [stepDiagnostics, List.mem_flatMap, List.mem_map, eq_comm]

/-- What is found about the start and about cycles are warnings. -/
theorem severity_startFindings {diagnostic : Diagnostic}
    (listed : diagnostic ∈ graph.startFindings.map (⟨·, none⟩)) :
    diagnostic.finding.severity = .warning := by
  obtain ⟨finding, found, rfl⟩ := List.mem_map.mp listed
  exact severity_eq_warning
    ((by decide : ["W001", "W011"] ⊆ ["W001", "W009", "W011"]) (code_of_mem_startFindings found))

theorem severity_cycleDiagnostics {diagnostic : Diagnostic}
    (listed : diagnostic ∈
      graph.cycles.filterMap (cycleDiagnostic? (graph.compiledSteps graph.linearize))) :
    diagnostic.finding.severity = .warning := by
  obtain ⟨cycle, -, found⟩ := List.mem_filterMap.mp listed
  refine severity_eq_warning ?_
  rw [code_of_cycleDiagnostic? found]
  decide

/-- The warnings about steps stand between those about the start and those about cycles. -/
theorem warnings_eq {report : Report} (analyzed : graph.analyze = .ok report) :
    report.warnings =
      graph.startFindings.map (⟨·, none⟩) ++
        (graph.stepDiagnostics.filter fun diagnostic => diagnostic.finding.severity = .warning) ++
        graph.cycles.filterMap (cycleDiagnostic? (graph.compiledSteps graph.linearize)) := by
  have ofStart : ((graph.startFindings.map (⟨·, none⟩) : List Diagnostic).filter fun diagnostic =>
      diagnostic.finding.severity = .warning) = graph.startFindings.map (⟨·, none⟩) :=
    List.filter_eq_self.mpr fun _ listed => decide_eq_true (severity_startFindings listed)
  rw [warnings_eq_filter analyzed, diagnostics_eq, List.filter_append, List.filter_append, ofStart,
    List.filter_eq_self.mpr fun _ listed => decide_eq_true (severity_cycleDiagnostics listed)]
  rfl

/-- Only steps give errors. -/
theorem errors_eq {report : Report} (analyzed : graph.analyze = .ok report) :
    report.errors =
      graph.stepDiagnostics.filter fun diagnostic =>
        !decide (diagnostic.finding.severity = .warning) := by
  have ofStart : ((graph.startFindings.map (⟨·, none⟩) : List Diagnostic).filter fun diagnostic =>
      !decide (diagnostic.finding.severity = .warning)) = [] :=
    List.filter_eq_nil_iff.mpr fun _ listed => by simp [severity_startFindings listed]
  have ofCycles : ((graph.cycles.filterMap
      (cycleDiagnostic? (graph.compiledSteps graph.linearize))).filter fun diagnostic =>
        !decide (diagnostic.finding.severity = .warning)) = [] :=
    List.filter_eq_nil_iff.mpr fun _ listed => by simp [severity_cycleDiagnostics listed]
  rw [errors_eq_filter analyzed, diagnostics_eq, List.filter_append, List.filter_append, ofStart,
    ofCycles, List.nil_append, List.append_nil]
  rfl

namespace WellFormed

variable {report : Report}

/-- What is found about a step stands at the position of the step. -/
theorem standsAt (wellFormed : graph.WellFormed) (analyzed : graph.analyze = .ok report)
    {position : Nat} {compiled : CompiledStep}
    (there : (graph.compiledSteps graph.linearize)[position]? = some compiled) (finding : Finding) :
    report.StandsAt position ⟨finding, some compiled.place⟩ := by
  have id := congrArg (·[position]?) (wellFormed.map_stepId_steps analyzed)
  simp only [List.getElem?_map, there, Option.map_some] at id
  obtain ⟨entry, entryThere, same⟩ := Option.map_eq_some_iff.mp id
  exact ⟨entry, entryThere, congrArg some same.symm⟩

/-- What is found about the steps is in step order. -/
theorem stepDiagnostics_ordered (wellFormed : graph.WellFormed)
    (analyzed : graph.analyze = .ok report) :
    graph.stepDiagnostics.Pairwise report.InStepOrder := by
  refine List.pairwise_flatMap.mpr ⟨fun compiled member => ?_, ?_⟩
  · obtain ⟨position, there⟩ := List.mem_iff_getElem?.mp member
    refine List.pairwise_map.mpr (List.pairwise_of_forall fun first second => ?_)
    exact ⟨position, position, Nat.le_refl _, wellFormed.standsAt analyzed there first,
      wellFormed.standsAt analyzed there second⟩
  · refine List.pairwise_iff_getElem.mpr fun position later inside insideToo before => ?_
    intro first firstFound second secondFound
    obtain ⟨finding, -, rfl⟩ := List.mem_map.mp firstFound
    obtain ⟨other, -, rfl⟩ := List.mem_map.mp secondFound
    exact ⟨position, later, Nat.le_of_lt before,
      wellFormed.standsAt analyzed (List.getElem?_eq_getElem inside) finding,
      wellFormed.standsAt analyzed (List.getElem?_eq_getElem insideToo) other⟩

/-- What is found about a cycle stands at its first node under the name of the step of that. -/
theorem names_of_cycleDiagnostic? (wellFormed : graph.WellFormed)
    (analyzed : graph.analyze = .ok report) {diagnostic : Diagnostic}
    (listed : diagnostic ∈
      graph.cycles.filterMap (cycleDiagnostic? (graph.compiledSteps graph.linearize))) :
    ∃ place, diagnostic.place = some place ∧ graph.Names report place.node place.step := by
  obtain ⟨cycle, cycleListed, found⟩ := List.mem_filterMap.mp listed
  obtain ⟨other, foundToo, names, reports⟩ := wellFormed.exists_reportsCycle analyzed cycleListed
  obtain rfl := Option.some.inj (found.symm.trans foundToo)
  obtain ⟨id, name, begins, beginsNames, placed⟩ := reports.place_eq
  obtain ⟨rest, rfl⟩ := List.head?_eq_some_iff.mp begins
  obtain ⟨others, rfl⟩ := List.head?_eq_some_iff.mp beginsNames
  obtain ⟨named, -⟩ := List.forall₂_cons.mp reports.named
  exact ⟨⟨name, id⟩, placed, named⟩

/-- Whatever is not found about the start stands at a node under the name of its step. -/
theorem exists_place_of_mem (wellFormed : graph.WellFormed)
    (analyzed : graph.analyze = .ok report) {diagnostic : Diagnostic}
    (found : diagnostic ∈ graph.diagnostics) :
    (diagnostic ∈ graph.startFindings.map (⟨·, none⟩) ∧ diagnostic.place = none) ∨
      ∃ place, diagnostic.place = some place ∧ graph.Names report place.node place.step := by
  rw [diagnostics_eq, List.append_assoc] at found
  rcases List.mem_append.mp found with ofStart | others
  · obtain ⟨finding, -, rfl⟩ := List.mem_map.mp ofStart
    exact .inl ⟨ofStart, rfl⟩
  refine .inr ?_
  rcases List.mem_append.mp others with ofStep | ofCycle
  · obtain ⟨compiled, member, finding, -, rfl⟩ := mem_stepDiagnostics_iff.mp ofStep
    exact ⟨compiled.place, rfl, wellFormed.names_of_mem analyzed member⟩
  · exact wellFormed.names_of_cycleDiagnostic? analyzed ofCycle

theorem mem_diagnostics_of_mem_findings (analyzed : graph.analyze = .ok report)
    {diagnostic : Diagnostic} (found : diagnostic ∈ report.findings) :
    diagnostic ∈ graph.diagnostics := by
  rw [Report.findings, warnings_eq_filter analyzed, errors_eq_filter analyzed] at found
  rcases List.mem_append.mp found with warning | error
  · exact List.mem_of_mem_filter warning
  · exact List.mem_of_mem_filter error

/-- The findings about the start are the only ones that stand nowhere. -/
theorem filter_findings_isNone (wellFormed : graph.WellFormed)
    (analyzed : graph.analyze = .ok report) :
    (report.findings.filter fun diagnostic => diagnostic.place.isNone) =
      graph.startFindings.map (⟨·, none⟩) := by
  have ofStart : ((graph.startFindings.map (⟨·, none⟩) : List Diagnostic).filter
      fun diagnostic => diagnostic.place.isNone) = graph.startFindings.map (⟨·, none⟩) := by
    refine List.filter_eq_self.mpr fun diagnostic listed => ?_
    obtain ⟨finding, -, rfl⟩ := List.mem_map.mp listed
    rfl
  have ofSteps : ∀ keep : Diagnostic → Bool, ((graph.stepDiagnostics.filter keep).filter
      fun diagnostic => diagnostic.place.isNone) = [] := by
    refine fun keep => List.filter_eq_nil_iff.mpr fun diagnostic listed => ?_
    obtain ⟨compiled, -, finding, -, rfl⟩ :=
      mem_stepDiagnostics_iff.mp (List.mem_of_mem_filter listed)
    exact Bool.false_ne_true
  have ofCycles : ((graph.cycles.filterMap
      (cycleDiagnostic? (graph.compiledSteps graph.linearize))).filter
        fun diagnostic => diagnostic.place.isNone) = [] := by
    refine List.filter_eq_nil_iff.mpr fun diagnostic listed => ?_
    obtain ⟨place, placed, -⟩ := wellFormed.names_of_cycleDiagnostic? analyzed listed
    simp [placed]
  rw [Report.findings, warnings_eq analyzed, errors_eq analyzed, List.filter_append,
    List.filter_append, List.filter_append, ofStart, ofSteps, ofSteps, ofCycles]
  simp only [List.append_nil]

/-- What was found about the steps, one after the other, is all that stands somewhere. -/
theorem findingsFor_perm (wellFormed : graph.WellFormed) (analyzed : graph.analyze = .ok report)
    (distinct : (report.steps.map StepEntry.stepId).Nodup) :
    (report.steps.flatMap fun entry => report.findingsFor entry.stepId).Perm
      (report.findings.filter fun diagnostic => !diagnostic.place.isNone) := by
  have apart : ∀ (diagnostic : Diagnostic) (first second : String),
      (diagnostic.place.any fun place => place.step == first) = true →
      (diagnostic.place.any fun place => place.step == second) = true → first = second := by
    rintro ⟨finding, nowhere | place⟩ first second atFirst atSecond
    · cases atFirst
    · exact (beq_iff_eq.mp atFirst).symm.trans (beq_iff_eq.mp atSecond)
  have grouped := flatMap_filter_perm distinct apart report.findings
  rw [List.flatMap_map] at grouped
  refine grouped.trans (.of_eq (List.filter_congr fun diagnostic listed => ?_))
  rcases wellFormed.exists_place_of_mem analyzed (mem_diagnostics_of_mem_findings analyzed listed)
    with ⟨-, nowhere⟩ | ⟨place, placed, position, entry, -, there, named⟩
  · simp [nowhere]
  · simpa [placed] using ⟨entry, List.mem_of_getElem? there, named.symm⟩

theorem arranges (wellFormed : graph.WellFormed) (analyzed : graph.analyze = .ok report) :
    graph.Arranges report (graph.startFindings.map (⟨·, none⟩))
      (graph.stepDiagnostics.filter fun diagnostic => diagnostic.finding.severity = .warning)
      (graph.cycles.filterMap (cycleDiagnostic? (graph.compiledSteps graph.linearize))) := by
  have unplaced := wellFormed.filter_findings_isNone analyzed
  have distinct : (report.steps.map StepEntry.stepId).Nodup := by
    have ids := (wellFormed.numbered "").ids_nodup
    rw [List.map_map] at ids
    rwa [wellFormed.map_stepId_steps analyzed]
  constructor
  case warnings_eq => exact warnings_eq analyzed
  case warning_code =>
    intro diagnostic listed
    rw [warnings_eq_filter analyzed] at listed
    rw [head?_code, if_pos (of_decide_eq_true (List.mem_filter.mp listed).2)]
  case error_code =>
    intro diagnostic listed
    rw [errors_eq_filter analyzed] at listed
    rw [head?_code, if_neg (by simpa using (List.mem_filter.mp listed).2)]
  case codes_ofStart => rw [List.map_map]; exact codes_startFindings
  case unplaced_eq => exact unplaced
  case codes_ofSteps =>
    intro diagnostic listed
    obtain ⟨compiled, -, finding, found, rfl⟩ :=
      mem_stepDiagnostics_iff.mp (List.mem_of_mem_filter listed)
    exact (by decide : ∀ code ∈ ownCodes ++ ["E001", "W010"], code ≠ "W009") _
      (code_of_mem_stepFindings found)
  case codes_ofCycles =>
    intro diagnostic listed
    obtain ⟨cycle, -, found⟩ := List.mem_filterMap.mp listed
    exact code_of_cycleDiagnostic? found
  case names =>
    intro diagnostic found place placed
    rcases wellFormed.exists_place_of_mem analyzed (mem_diagnostics_of_mem_findings analyzed found)
      with ⟨-, nowhere⟩ | ⟨other, otherPlaced, named⟩
    · cases nowhere.symm.trans placed
    · obtain rfl := Option.some.inj (otherPlaced.symm.trans placed)
      exact ⟨wellFormed.live_of_names named, named⟩
  case stepIds_nodup => exact distinct
  case ofSteps_ordered =>
    exact (wellFormed.stepDiagnostics_ordered analyzed).sublist List.filter_sublist
  case errors_ordered =>
    rw [errors_eq analyzed]
    exact (wellFormed.stepDiagnostics_ordered analyzed).sublist List.filter_sublist
  case findings_perm =>
    rw [← unplaced]
    exact ((wellFormed.findingsFor_perm analyzed distinct).append_left _).trans
      (List.filter_append_perm _ _)

end WellFormed

/-- Where the findings on a graph with a history and a node belong. Warnings and errors are told
apart by their codes. There is a finding about the start, in front and at no step, unless there is
exactly one start. All others stand at a node of the graph under the name of its step. The errors
are in step order, and so are the warnings before those about cycles, which come last. The finding
about the start and what is found for each entry are all findings, each once. -/
theorem attribution_of_reachable (reachable : graph.Reachable) (nonempty : graph.nodes ≠ []) :
    ∃ report ofStart ofSteps ofCycles, graph.analyze = .ok report ∧
      graph.Arranges report ofStart ofSteps ofCycles := by
  have analyzed := analyze_of_nodes_ne_nil nonempty
  exact ⟨_, _, _, _, analyzed, reachable.wellFormed.arranges analyzed⟩

/-- A history of a graph without a start, with findings about steps, errors among them, and with
a cycle whose first node does not come first in step order. -/
def startlessHistory : List Edit := [
  .addNode { typeLabel := "GOTO" },
  .addNode { typeLabel := "WAIT", document := some "[]" },
  .addNode { typeLabel := "PAUSE" },
  .connect ⟨2⟩ ⟨1⟩,
  .connect ⟨1⟩ ⟨2⟩,
  .connect ⟨1⟩ ⟨1⟩]

theorem attribution_after_startlessHistory :
    (empty.run startlessHistory).Reachable ∧ (empty.run startlessHistory).nodes ≠ [] ∧
      ∃ report ofStart ofSteps ofCycles, (empty.run startlessHistory).analyze = .ok report ∧
        (empty.run startlessHistory).Arranges report ofStart ofSteps ofCycles ∧
        ofStart.map (fun diagnostic => diagnostic.finding.code) = ["W001"] ∧
        report.errors.map (fun diagnostic => (diagnostic.finding.code, diagnostic.place)) =
          [("E002", some ⟨"node_01", ⟨0⟩⟩), ("E003", some ⟨"node_02", ⟨1⟩⟩)] := by
  have reachable : (empty.run startlessHistory).Reachable := ⟨startlessHistory, rfl⟩
  have nonempty : (empty.run startlessHistory).nodes ≠ [] := by decide +kernel
  obtain ⟨report, ofStart, ofSteps, ofCycles, analyzed, arranges⟩ :=
    attribution_of_reachable reachable nonempty
  refine ⟨reachable, nonempty, report, ofStart, ofSteps, ofCycles, analyzed, arranges, ?_, ?_⟩
  · rw [arranges.codes_ofStart, show (empty.run startlessHistory).starts = [] by decide +kernel]
    rfl
  · rw [errors_eq_filter analyzed]
    decide +kernel

end Graph

end MotionSteps
