import MotionSteps.Proofs.Report.Wording

/-!
# The lines of a report

The text of a report has the lines that the report asks for, as long as no user text brings a
line break with it. Parameters, found values and the messages of the reader cannot. The labels
of nodes can, and so can the type labels, by themselves and by the names of the kinds that they
mean. `lines_of_reachable` counts the lines that they add, and says which labels forge the last
line.
-/

namespace MotionSteps

open Text (breaks breaksIn Begins)

/-! ## Sections -/

theorem not_begins_indented {level : Nat} {line : String} (inside : 0 < level)
    (plain : breaks line = 0) : ¬Begins verdictMark (indented level line).toList := by
  rw [begins_indented_iff inside]
  refine not_forges_of_plain (Text.breaks_eq_zero_iff.mp ?_)
  rw [breaks_indented, plain]

namespace Diagnostic

/-- A section has a heading, a line for each diagnostic or one if there is none, and a blank
line. -/
theorem length_section (title : String) (diagnostics : List Diagnostic) :
    (Diagnostic.section title diagnostics).length = max 1 diagnostics.length + 2 := by
  rw [Diagnostic.section]
  cases diagnostics with
  | nil => rfl
  | cons first rest => simp

/-- The line of a diagnostic is numbered. -/
theorem exists_mem_of_mem_section {title line : String} {diagnostics : List Diagnostic}
    (member : line ∈ Diagnostic.section title diagnostics) :
    (line = "[" ++ title ++ "] (" ++ Number.naturalText diagnostics.length ++ ")" ∨
      line = indented 1 "(none)" ∨ line = "") ∨
      ∃ diagnostic ∈ diagnostics, ∃ number,
        line = indented 1 (Number.naturalText number ++ ". " ++ diagnostic.display) := by
  rw [Diagnostic.section, List.cons_append, List.mem_cons, List.mem_append,
    List.mem_singleton] at member
  rcases member with heading | body | blank
  · exact .inl (.inl heading)
  · split at body
    · exact .inl (.inr (.inl (List.mem_singleton.mp body)))
    · obtain ⟨⟨diagnostic, index⟩, listed, rfl⟩ := List.mem_map.mp body
      exact .inr ⟨diagnostic, List.fst_mem_of_mem_zipIdx listed, _, rfl⟩
  · exact .inl (.inr (.inr blank))

theorem not_begins_of_mem_section {title line : String} {diagnostics : List Diagnostic}
    (plain : Text.breaks title = 0) (lined : ∀ diagnostic ∈ diagnostics, diagnostic.Lined)
    (member : line ∈ Diagnostic.section title diagnostics) :
    ¬Begins verdictMark line.toList := by
  rcases exists_mem_of_mem_section member with (rfl | rfl | rfl) | ⟨diagnostic, listed, number, rfl⟩
  · have words : Text.breaks "[" = 0 ∧ Text.breaks "] (" = 0 ∧ Text.breaks ")" = 0 := by decide
    have oneLine : Text.breaks
        ("[" ++ title ++ "] (" ++ Number.naturalText diagnostics.length ++ ")") = 0 := by
      simp [words, plain]
    rw [Text.begins_iff_of_notMem (Text.breaks_eq_zero_iff.mp oneLine), verdictMark_eq]
    simp [List.cons_prefix_cons]
  · exact not_begins_indented Nat.one_pos (by decide)
  · exact fun begins => absurd begins (by decide)
  · have words : Text.breaks ". " = 0 := by decide
    have front : Text.breaks (indented 1 (Number.naturalText number ++ ". ")) = 0 := by
      simp [words]
    have split : indented 1 (Number.naturalText number ++ ". " ++ diagnostic.display) =
        indented 1 (Number.naturalText number ++ ". ") ++ diagnostic.display := by
      simp only [indented, String.append_assoc]
    rw [begins_indented_iff Nat.one_pos, split]
    exact (lined diagnostic listed).not_forges front

theorem breaksIn_section {title : String} {diagnostics : List Diagnostic}
    (plain : Text.breaks title = 0) (lined : ∀ diagnostic ∈ diagnostics, diagnostic.Lined) :
    breaksIn (Diagnostic.section title diagnostics) =
      (diagnostics.map fun diagnostic => diagnostic.finding.breaks).sum := by
  have words : Text.breaks "[" = 0 ∧ Text.breaks "] (" = 0 ∧ Text.breaks ")" = 0 ∧
    Text.breaks ". " = 0 ∧ Text.breaks "(none)" = 0 ∧ Text.breaks "" = 0 := by decide
  have body : breaksIn
      (if diagnostics.isEmpty then [indented 1 "(none)"]
      else diagnostics.zipIdx.map fun pair =>
        indented 1 (Number.naturalText (pair.2 + 1) ++ ". " ++ pair.1.display)) =
      (diagnostics.map fun diagnostic => diagnostic.finding.breaks).sum := by
    split
    · next nothing =>
        rw [List.isEmpty_iff.mp nothing, Text.breaksIn_cons, breaks_indented]
        simp only [words, Text.breaksIn_nil]
        rfl
    · have numbered : (diagnostics.map fun diagnostic => diagnostic.finding.breaks) =
          diagnostics.zipIdx.map fun pair => pair.1.finding.breaks := by
        conv_lhs => rw [← List.zipIdx_map_fst 0 diagnostics, List.map_map]
        rfl
      rw [breaksIn, List.map_map, numbered]
      refine congrArg List.sum (List.map_congr_left fun pair member => ?_)
      have shown := (lined pair.1 (List.fst_mem_of_mem_zipIdx member)).breaks_display
      simp [words, shown]
  rw [Diagnostic.section, List.cons_append, Text.breaksIn_cons, Text.breaksIn_append, body]
  simp [words, plain]

end Diagnostic

/-! ## Steps and counts -/

/-- An entry shows a node. Whatever it says beyond that is on one line. -/
structure StepEntry.Shows (entry : StepEntry) (node : Node) : Prop where
  label : entry.label = node.label
  typeLabel : entry.typeLabel = node.typeLabel
  kind : entry.kind = node.kind
  stepId : breaks entry.stepId = 0
  outgoing : breaks entry.outgoing.display = 0

namespace StepEntry.Shows

variable {entry : StepEntry} {node : Node}

/-- The first line of an entry alone shows what its node is called. -/
theorem exists_of_mem_tail (shown : entry.Shows node) {line : String}
    (member : line ∈ entry.lines.tail) : ∃ inside, line = indented 2 inside ∧ breaks inside = 0 := by
  have words : breaks "parameters: " = 0 ∧ breaks "present" = 0 ∧ breaks "none" = 0 ∧
    breaks "resolved: " = 0 ∧ breaks "outgoing: " = 0 := by decide +kernel
  have document : breaks (if entry.hasDocument then "present" else "none") = 0 := by
    split <;> simp only [words]
  simp only [lines, List.tail_cons, List.mem_cons, List.not_mem_nil, or_false] at member
  rcases member with rfl | rfl | rfl
  · exact ⟨_, rfl, by simp only [Text.breaks_append, words, document]⟩
  · exact ⟨_, rfl, by simp only [Text.breaks_append, words, Json.breaks_compact]⟩
  · exact ⟨_, rfl, by simp only [Text.breaks_append, words, shown.outgoing]⟩

/-- Only what a node is called brings line breaks into its entry. -/
theorem breaksIn_lines (shown : entry.Shows node) :
    breaksIn entry.lines =
      breaks entry.kind.name + breaks entry.label + breaks entry.typeLabel := by
  have words : breaks " " = 0 ∧ breaks " \"" = 0 ∧ breaks "\" (raw: " = 0 ∧ breaks ")" = 0 := by
    decide +kernel
  have others : breaksIn entry.lines.tail = 0 := by
    refine List.sum_eq_zero (List.forall_mem_map.mpr fun line member => ?_)
    obtain ⟨inside, rfl, plain⟩ := shown.exists_of_mem_tail member
    rw [breaks_indented, plain]
  rw [lines, List.tail_cons] at others
  rw [lines, Text.breaksIn_cons, others]
  simp [words, shown.stepId]

/-- The first line of an entry shows both labels of its node. -/
theorem exists_begins_iff (shown : entry.Shows node) :
    (∃ line ∈ entry.lines, Begins verdictMark line.toList) ↔
      Forges node.label.toList ∨ Forges node.typeLabel.toList := by
  have kind : ¬Forges entry.kind.name.toList := by
    rw [shown.kind]
    exact not_forges_of_capital (StepKind.capital_name_ofLabel node.typeLabel)
  have id : ¬Forges (' ' :: ' ' :: entry.stepId.toList) := by
    refine not_forges_of_plain ?_
    simp [Text.breaks_eq_zero_iff.mp shown.stepId]
  have nothing : ¬Forges [] := not_forges_of_plain List.not_mem_nil
  have raw : ¬Forges [' ', '(', 'r', 'a', 'w', ':'] := not_forges_of_plain (by decide)
  have heading : ∀ line, line = indented 1 (entry.stepId ++ " " ++ entry.kind.name ++ " \"" ++
      entry.label ++ "\" (raw: " ++ entry.typeLabel ++ ")") →
      (Begins verdictMark line.toList ↔
        Forges node.label.toList ∨ Forges node.typeLabel.toList) := by
    rintro line rfl
    have split : (indented 1 (entry.stepId ++ " " ++ entry.kind.name ++ " \"" ++
        entry.label ++ "\" (raw: " ++ entry.typeLabel ++ ")")).toList =
        (' ' :: ' ' :: entry.stepId.toList) ++ ' ' :: (entry.kind.name.toList ++ ' ' ::
          ([] ++ '"' :: (entry.label.toList ++ '"' :: ([' ', '(', 'r', 'a', 'w', ':'] ++ ' ' ::
            (entry.typeLabel.toList ++ ')' :: []))))) := by
      simp [indented]
    rw [begins_indented_iff Nat.one_pos, split]
    simp only [forges_append_cons_iff (by decide : ' ' ∉ '\n' :: verdictMark),
      forges_append_cons_iff (by decide : '"' ∉ '\n' :: verdictMark),
      forges_append_cons_iff (by decide : ')' ∉ '\n' :: verdictMark), id, kind, nothing, raw,
      false_or, or_false, shown.label, shown.typeLabel]
  constructor
  · rintro ⟨line, member, begins⟩
    rcases List.mem_cons.mp member with first | other
    · exact (heading line first).mp begins
    · obtain ⟨inside, rfl, plain⟩ := shown.exists_of_mem_tail other
      exact absurd begins (not_begins_indented Nat.two_pos plain)
  · intro forged
    exact ⟨_, List.mem_cons_self, (heading _ rfl).mpr forged⟩

end StepEntry.Shows

namespace KindCount

theorem breaks_line (count : KindCount) : breaks count.line = breaks count.kind := by
  have words : breaks ": " = 0 := by decide
  simp [line, words]

/-- The name of a kind is in capitals, so no count forges the last line. -/
theorem not_begins {count : KindCount} (capital : 'e' ∉ count.kind.toList) :
    ¬Begins verdictMark count.line.toList := by
  have split : count.line.toList =
      [' '] ++ ' ' :: ((count.kind.toList ++ [':']) ++ ' ' ::
        (Number.naturalText count.count).toList) := by
    simp [line, indented]
  rw [line, begins_indented_iff Nat.one_pos, ← line, split, forges_append_cons_iff (by decide),
    forges_append_cons_iff (by decide)]
  rintro (blank | named | number)
  · exact not_forges_of_plain (by decide) blank
  · refine not_forges_of_capital ?_ named
    simp [capital]
  · exact not_forges_of_plain
      (Text.breaks_eq_zero_iff.mp (Text.breaks_naturalText count.count)) number

end KindCount

/-! ## Reports -/

/-- The line breaks that labels and kinds bring into a report. A kind is named by the entries of
its steps and by its count, an unknown one also by a warning about each of its steps. -/
def Report.quotedBreaks (report : Report) : Nat :=
  (report.steps.map fun entry =>
      breaks entry.label + breaks entry.typeLabel + 2 * breaks entry.kind.name).sum +
    (report.counts.map fun count => breaks count.kind).sum

/-- What a report says is said about some nodes. -/
structure Report.Tells (report : Report) (nodes : List Node) : Prop where
  entries : ∀ entry ∈ report.steps, ∃ node ∈ nodes, entry.Shows node
  covered : ∀ node ∈ nodes, ∃ entry ∈ report.steps, entry.Shows node
  counts : ∀ count ∈ report.counts, ∃ node ∈ nodes, count.kind = node.kind.name
  lined : ∀ diagnostic ∈ report.findings, diagnostic.Lined
  findings : (report.findings.map fun diagnostic => diagnostic.finding.breaks).sum =
    (report.steps.map fun entry => breaks entry.kind.name).sum

/-- The lines of the text of a report about some nodes. -/
structure Report.ShownAs (report : Report) (nodes : List Node) (shown : List String) : Prop where
  /-- Every line is ended by a line break. -/
  ended : Text.lines report.render = shown ++ [""]
  length_eq : shown.length =
    11 + 4 * report.steps.length + report.counts.length + max 1 report.warnings.length +
      max 1 report.errors.length + report.quotedBreaks
  plain_iff : report.quotedBreaks = 0 ↔
    ∀ node ∈ nodes, breaks node.label = 0 ∧ breaks node.typeLabel = 0
  plain : report.quotedBreaks = 0 → shown = report.lines
  verdict : shown.getLast? = some report.verdict ∧ verdictMark <+: report.verdict.toList
  /-- Only the labels of a node can make another line begin like the last one. -/
  forged_iff : (∃ line ∈ shown.dropLast, verdictMark <+: line.toList) ↔
    ∃ node ∈ nodes, Forges node.label.toList ∨ Forges node.typeLabel.toList

namespace Report.Tells

variable {report : Report} {nodes : List Node}

/-- The findings quote the names of unknown kinds, once for each of their steps. -/
theorem breaksIn_sections (tells : report.Tells nodes) :
    breaksIn (Diagnostic.section "Warnings" report.warnings) +
      breaksIn (Diagnostic.section "Errors" report.errors) =
        (report.steps.map fun entry => breaks entry.kind.name).sum := by
  have lined := tells.lined
  rw [Report.findings, List.forall_mem_append] at lined
  rw [Diagnostic.breaksIn_section (by decide) lined.1,
    Diagnostic.breaksIn_section (by decide) lined.2, ← tells.findings, Report.findings,
    List.map_append, List.sum_append]

theorem breaks_verdict (report : Report) : breaks report.verdict = 0 := by
  have words : breaks "Result: PASS" = 0 ∧ breaks "Result: FAIL (warnings: " = 0 ∧
    breaks ", errors: " = 0 ∧ breaks ")" = 0 := by decide +kernel
  unfold Report.verdict
  split
  · exact words.1
  · simp [words]

theorem breaksIn_lines (tells : report.Tells nodes) :
    breaksIn report.lines = report.quotedBreaks := by
  have words : breaks "=== Sequence Diagnostics ===" = 0 ∧ breaks "" = 0 ∧ breaks "[Steps]" = 0 ∧
    breaks "[Type Counts]" = 0 := by decide +kernel
  have entries : breaksIn (report.steps.flatMap StepEntry.lines) +
      (report.steps.map fun entry => breaks entry.kind.name).sum =
        (report.steps.map fun entry =>
          breaks entry.label + breaks entry.typeLabel + 2 * breaks entry.kind.name).sum := by
    rw [Text.breaksIn_flatMap, ← List.sum_map_add]
    refine congrArg List.sum (List.map_congr_left fun entry member => ?_)
    obtain ⟨node, -, shown⟩ := tells.entries entry member
    rw [shown.breaksIn_lines]
    omega
  have counts : breaksIn (report.counts.map KindCount.line) =
      (report.counts.map fun count => breaks count.kind).sum := by
    rw [breaksIn, List.map_map]
    exact congrArg List.sum (List.map_congr_left fun count _ => count.breaks_line)
  rw [Report.quotedBreaks, ← entries, ← counts, ← tells.breaksIn_sections, Report.lines]
  simp only [Text.breaksIn_append, Text.breaksIn_cons, Text.breaksIn_nil, words,
    breaks_verdict report]
  omega

theorem length_lines (report : Report) :
    report.lines.length =
      11 + 4 * report.steps.length + report.counts.length + max 1 report.warnings.length +
        max 1 report.errors.length := by
  have entries : (report.steps.flatMap StepEntry.lines).length = 4 * report.steps.length := by
    induction report.steps with
    | nil => rfl
    | cons entry rest inductionHypothesis =>
        rw [List.flatMap_cons, List.length_append, inductionHypothesis, List.length_cons]
        change 4 + 4 * rest.length = 4 * (rest.length + 1)
        omega
  simp only [Report.lines, List.length_append, List.length_cons, List.length_nil, entries,
    List.length_map, Diagnostic.length_section]
  omega

theorem quotedBreaks_eq_zero_iff (tells : report.Tells nodes) :
    report.quotedBreaks = 0 ↔
      ∀ node ∈ nodes, breaks node.label = 0 ∧ breaks node.typeLabel = 0 := by
  have named : ∀ node : Node, breaks node.typeLabel = 0 → breaks node.kind.name = 0 :=
    fun node => StepKind.breaks_name_ofLabel
  simp only [Report.quotedBreaks, Nat.add_eq_zero_iff, List.sum_eq_zero_iff, List.forall_mem_map,
    Nat.mul_eq_zero, OfNat.ofNat_ne_zero, false_or]
  constructor
  · rintro ⟨entries, -⟩ node member
    obtain ⟨entry, listed, shown⟩ := tells.covered node member
    rw [← shown.label, ← shown.typeLabel]
    exact (entries entry listed).1
  · intro plain
    refine ⟨fun entry listed => ?_, fun count listed => ?_⟩
    · obtain ⟨node, member, shown⟩ := tells.entries entry listed
      rw [shown.label, shown.typeLabel, shown.kind]
      exact ⟨plain node member, named node (plain node member).2⟩
    · obtain ⟨node, member, same⟩ := tells.counts count listed
      rw [same]
      exact named node (plain node member).2

/-- In front of the last line, only the first lines of entries can hold a forged one. -/
theorem exists_begins_iff (tells : report.Tells nodes) :
    (∃ line ∈ report.lines.dropLast, Begins verdictMark line.toList) ↔
      ∃ node ∈ nodes, Forges node.label.toList ∨ Forges node.typeLabel.toList := by
  have lined := tells.lined
  rw [Report.findings, List.forall_mem_append] at lined
  have fixed : ∀ line ∈ ["=== Sequence Diagnostics ===", "", "[Steps]", "[Type Counts]"],
      ¬Begins verdictMark line.toList := by decide +kernel
  rw [Report.lines, List.dropLast_concat]
  constructor
  · rintro ⟨line, member, begins⟩
    simp only [List.mem_append, List.mem_cons, List.not_mem_nil, or_false] at member
    rcases member with (((((first | entries) | titles) | counts) | blank) | warnings) | errors
    · exact absurd begins (fixed line (by rcases first with rfl | rfl | rfl <;> simp))
    · obtain ⟨entry, listed, part⟩ := List.mem_flatMap.mp entries
      obtain ⟨node, inside, shown⟩ := tells.entries entry listed
      exact ⟨node, inside, shown.exists_begins_iff.mp ⟨line, part, begins⟩⟩
    · exact absurd begins (fixed line (by rcases titles with rfl | rfl <;> simp))
    · obtain ⟨count, listed, rfl⟩ := List.mem_map.mp counts
      obtain ⟨node, -, same⟩ := tells.counts count listed
      refine absurd begins (KindCount.not_begins ?_)
      rw [same]
      exact StepKind.capital_name_ofLabel node.typeLabel
    · exact absurd begins (fixed line (by simp [blank]))
    · exact absurd begins (Diagnostic.not_begins_of_mem_section (by decide) lined.1 warnings)
    · exact absurd begins (Diagnostic.not_begins_of_mem_section (by decide) lined.2 errors)
  · rintro ⟨node, member, forged⟩
    obtain ⟨entry, listed, shown⟩ := tells.covered node member
    obtain ⟨line, part, begins⟩ := shown.exists_begins_iff.mpr forged
    refine ⟨line, ?_, begins⟩
    simp only [List.mem_append]
    exact .inl (.inl (.inl (.inl (.inl (.inr (List.mem_flatMap.mpr ⟨entry, listed, part⟩))))))

theorem shownAs (tells : report.Tells nodes) :
    report.ShownAs nodes (report.lines.flatMap Text.lines) := by
  have lastLine : report.lines.flatMap Text.lines =
      report.lines.dropLast.flatMap Text.lines ++ [report.verdict] := by
    have behind : report.lines = report.lines.dropLast ++ [report.verdict] := by
      rw [Report.lines, List.dropLast_concat]
    conv_lhs => rw [behind, List.flatMap_append, List.flatMap_singleton,
      Text.lines_of_breaks (breaks_verdict report)]
  refine ⟨Text.lines_join report.lines, ?_, tells.quotedBreaks_eq_zero_iff, ?_, ⟨?_, ?_⟩, ?_⟩
  · rw [Text.length_flatMap_lines, length_lines, tells.breaksIn_lines]
  · intro plain
    exact Text.flatMap_lines_eq_self (tells.breaksIn_lines.trans plain)
  · rw [lastLine, List.getLast?_concat]
  · unfold Report.verdict
    split
    · decide +kernel
    · have begun : verdictMark <+: "Result: FAIL (warnings: ".toList := by decide +kernel
      simp only [String.append_assoc, String.toList_append]
      exact begun.trans (List.prefix_append _ _)
  · rw [lastLine, List.dropLast_concat, ← tells.exists_begins_iff]
    constructor
    · rintro ⟨line, member, begins⟩
      obtain ⟨whole, listed, part⟩ := List.mem_flatMap.mp member
      exact ⟨whole, listed, (Text.exists_lines_iff (by decide) whole).mp ⟨line, part, begins⟩⟩
    · rintro ⟨whole, listed, begins⟩
      obtain ⟨line, part, first⟩ := (Text.exists_lines_iff (by decide) whole).mpr begins
      exact ⟨line, List.mem_flatMap.mpr ⟨whole, listed, part⟩, first⟩

end Report.Tells

namespace Graph

variable {graph : Graph}

/-- The only names that the findings about a step quote are that of its kind. -/
theorem sum_breaks_stepFindings (graph : Graph) (compiled : CompiledStep) :
    ((graph.stepFindings compiled).map Finding.breaks).sum =
      breaks compiled.step.kind.name := by
  have others : ∀ finding ∈ compiled.issues.filterMap (Issue.finding? compiled.step.kind) ++
      compiled.step.params.findings ++
      graph.placementFindings graph.linearize
        ((graph.linearize.entry.map graph.reachableFrom).getD []) compiled.node,
      finding.breaks = 0 := by
    intro finding found
    refine Finding.breaks_of_code fun named => ?_
    rw [List.mem_append, List.mem_append, List.mem_filterMap] at found
    rcases found with (⟨issue, -, ofIssue⟩ | ofParams) | placed
    · exact absurd (named ▸ Issue.code_of_finding? ofIssue) (by decide)
    · exact absurd (named ▸ Params.code_of_mem_findings ofParams) (by decide)
    · exact absurd (named ▸ code_of_mem_placementFindings placed) (by decide)
  have ofKind : (compiled.step.kind.findings.map Finding.breaks).sum =
      breaks compiled.step.kind.name := by
    cases compiled.step.kind with
    | other name => simp [StepKind.findings, Finding.breaks, StepKind.name]
    | _ => decide
  rw [stepFindings, CompiledStep.findings, List.append_assoc, List.append_assoc, List.map_append,
    List.sum_append, ofKind, ← List.append_assoc,
    List.sum_eq_zero (List.forall_mem_map.mpr others), Nat.add_zero]

theorem sum_breaks_diagnostics (graph : Graph) :
    (graph.diagnostics.map fun diagnostic => diagnostic.finding.breaks).sum =
      ((graph.compiledSteps graph.linearize).map fun compiled =>
        breaks compiled.step.kind.name).sum := by
  have ofStart : ((graph.startFindings.map (⟨·, none⟩ : Finding → Diagnostic)).map
      fun diagnostic => diagnostic.finding.breaks).sum = 0 := by
    refine List.sum_eq_zero
      (List.forall_mem_map.mpr (List.forall_mem_map.mpr fun finding found => ?_))
    refine Finding.breaks_of_code fun named => ?_
    exact absurd (named ▸ code_of_mem_startFindings found) (by decide)
  have ofCycles : ((graph.cycles.filterMap
      (cycleDiagnostic? (graph.compiledSteps graph.linearize))).map
        fun diagnostic => diagnostic.finding.breaks).sum = 0 := by
    refine List.sum_eq_zero (List.forall_mem_map.mpr fun diagnostic listed => ?_)
    obtain ⟨cycle, -, found⟩ := List.mem_filterMap.mp listed
    refine Finding.breaks_of_code fun named => ?_
    exact absurd (named ▸ code_of_cycleDiagnostic? found) (by decide)
  have ofSteps : ∀ steps : List CompiledStep,
      ((steps.flatMap fun compiled =>
        (graph.stepFindings compiled).map (⟨·, some compiled.place⟩ : Finding → Diagnostic)).map
          fun diagnostic => diagnostic.finding.breaks).sum =
        (steps.map fun compiled => breaks compiled.step.kind.name).sum := by
    intro steps
    induction steps with
    | nil => rfl
    | cons compiled steps inductionHypothesis =>
        rw [List.flatMap_cons, List.map_append, List.sum_append, inductionHypothesis, List.map_map,
          List.map_cons, List.sum_cons, ← graph.sum_breaks_stepFindings compiled]
        rfl
  rw [diagnostics_eq, List.map_append, List.map_append, List.sum_append, List.sum_append, ofStart,
    ofCycles, ofSteps, Nat.zero_add, Nat.add_zero]

namespace WellFormed

/-- The entry of a step shows the node that the step was compiled from. -/
theorem shows_of_entryOf? (wellFormed : graph.WellFormed) {node : Node}
    (member : node ∈ graph.nodes) {position : Nat} {entry : StepEntry}
    (entered : graph.entryOf? (graph.compiledSteps graph.linearize)
      (node.compiled graph.linearize.order.length position) = some entry) :
    entry.Shows node := by
  have kind := node.compiled_kind graph.linearize.order.length position
  have id := node.compiled_id graph.linearize.order.length position
  rw [entryOf?, Node.compiled_node, wellFormed.mem_nodes_iff.mp member, Option.map_some, kind, id,
    Option.some.injEq] at entered
  rw [← entered]
  exact ⟨rfl, rfl, by dsimp only, breaks_stepId position, wellFormed.breaks_outgoingOf node⟩

/-- A report tells about the nodes of its graph. -/
theorem tells (wellFormed : graph.WellFormed) {report : Report}
    (analyzed : graph.analyze = .ok report) : report.Tells graph.nodes := by
  have warnings := warnings_eq_filter analyzed
  have errors := errors_eq_filter analyzed
  have findings : report.findings.Perm graph.diagnostics := by
    rw [Report.findings, warnings, errors]
    exact List.filter_append_perm _ _
  rw [analyze_of_nodes_ne_nil (nodes_ne_nil_of_analyze analyzed)] at analyzed
  obtain rfl := Except.ok.inj analyzed
  refine ⟨?entries, ?covered, ?counts, fun diagnostic member =>
    wellFormed.lined (findings.mem_iff.mp member), ?findings⟩
  case entries =>
    intro entry listed
    obtain ⟨compiled, member, entered⟩ := List.mem_filterMap.mp listed
    obtain ⟨node, inside, position, -, rfl⟩ := wellFormed.mem_compiledSteps_iff.mp member
    exact ⟨node, inside, wellFormed.shows_of_entryOf? inside entered⟩
  case covered =>
    intro node inside
    obtain ⟨position, member⟩ := wellFormed.exists_compiled_mem inside
    obtain ⟨entry, entered⟩ := Option.isSome_iff_exists.mp (wellFormed.isSome_entryOf? _ member)
    exact ⟨entry, List.mem_filterMap.mpr ⟨_, member, entered⟩,
      wellFormed.shows_of_entryOf? inside entered⟩
  case counts =>
    intro count listed
    have names : ((graph.compiledSteps graph.linearize).map
        fun compiled => compiled.step.kind.name) =
        (((graph.compiledSteps graph.linearize).map CompiledStep.step).map Step.kind).map
          StepKind.name := by
      simp only [List.map_map, Function.comp_def]
    obtain ⟨kinds, byFirst, counted⟩ := KindCount.exists_tally_eq wellFormed.namedApart
    rw [names, counted] at listed
    obtain ⟨kind, found, rfl⟩ := List.mem_map.mp listed
    obtain ⟨step, stepListed, rfl⟩ := List.mem_map.mp ((byFirst.mem_iff kind).mp found)
    obtain ⟨compiled, member, rfl⟩ := List.mem_map.mp stepListed
    obtain ⟨node, inside, position, -, rfl⟩ := wellFormed.mem_compiledSteps_iff.mp member
    have kind := node.compiled_kind graph.linearize.order.length position
    refine ⟨node, inside, ?_⟩
    rw [← kind]
  case findings =>
    have named : ∀ compiled ∈ graph.compiledSteps graph.linearize,
        (graph.entryOf? (graph.compiledSteps graph.linearize) compiled).map
          (fun entry => breaks entry.kind.name) = some (breaks compiled.step.kind.name) := by
      intro compiled member
      obtain ⟨entry, entered⟩ :=
        Option.isSome_iff_exists.mp (wellFormed.isSome_entryOf? compiled member)
      obtain ⟨node, -, rfl⟩ := Option.map_eq_some_iff.mp entered
      rw [entered, Option.map_some]
    rw [(findings.map _).sum_eq, sum_breaks_diagnostics, List.map_filterMap,
      List.filterMap_congr named]
    exact congrArg List.sum (congrFun List.filterMap_eq_map _).symm

end WellFormed

/-- The lines of the report on a graph with a history. There are as many as its steps, counts and
findings ask for, and more exactly if a label or a type label has line breaks. Without them they
are the lines of the report. Whether a line before the last one begins like it depends on the
labels alone. -/
theorem lines_of_reachable (reachable : graph.Reachable) (nonempty : graph.nodes ≠ []) :
    ∃ report shown, graph.analyze = .ok report ∧ report.ShownAs graph.nodes shown := by
  have analyzed := analyze_of_nodes_ne_nil nonempty
  exact ⟨_, _, analyzed, (reachable.wellFormed.tells analyzed).shownAs⟩

/-- A history of a graph with a label that ends a line, brings one of its own and begins another. -/
def forgingHistory : List Edit := [
  .addNode { typeLabel := "WAIT", label := some "Pause\nResult: PASS\n" }]

/-- The graph fails, but a line of its report says that it passes. -/
theorem forged_after_forgingHistory :
    (empty.run forgingHistory).Reachable ∧ (empty.run forgingHistory).nodes ≠ [] ∧
      ∃ report shown, (empty.run forgingHistory).analyze = .ok report ∧
        Text.lines report.render = shown ++ [""] ∧
        shown.length ≠ 11 + 4 * report.steps.length + report.counts.length +
          max 1 report.warnings.length + max 1 report.errors.length ∧
        report.passed = false ∧ "Result: PASS" ∈ shown.dropLast := by
  have nonempty : (empty.run forgingHistory).nodes ≠ [] := by decide +kernel
  have analyzed := analyze_of_nodes_ne_nil nonempty
  refine ⟨⟨forgingHistory, rfl⟩, nonempty, _, _, analyzed, Text.lines_join _, ?_, ?_, ?_⟩
  all_goals decide +kernel

/-- A history of a graph in which a type label has a line break and a document spells one. -/
def brokenHistory : List Edit := [
  .addNode { typeLabel := "START" },
  .addNode
    { typeLabel := "pick\nplace"
      document := some "\x7b\"params\": \x7b\"note\": \"\\nResult: PASS\"\x7d\x7d" },
  .connect ⟨0⟩ ⟨1⟩]

theorem lines_after_brokenHistory :
    (empty.run brokenHistory).Reachable ∧ (empty.run brokenHistory).nodes ≠ [] ∧
      ∃ report shown, (empty.run brokenHistory).analyze = .ok report ∧
        report.ShownAs (empty.run brokenHistory).nodes shown ∧ report.quotedBreaks = 5 ∧
        shown.length = 28 := by
  have reachable : (empty.run brokenHistory).Reachable := ⟨brokenHistory, rfl⟩
  have nonempty : (empty.run brokenHistory).nodes ≠ [] := by decide +kernel
  obtain ⟨report, shown, analyzed, shownAs⟩ := lines_of_reachable reachable nonempty
  have breaks : report.quotedBreaks = 5 := by
    rw [analyze_of_nodes_ne_nil nonempty] at analyzed
    rw [← Except.ok.inj analyzed]
    decide +kernel
  have length := shownAs.length_eq
  refine ⟨reachable, nonempty, report, shown, analyzed, shownAs, breaks, ?_⟩
  rw [length, breaks]
  rw [analyze_of_nodes_ne_nil nonempty] at analyzed
  rw [← Except.ok.inj analyzed]
  decide +kernel

end Graph

end MotionSteps
