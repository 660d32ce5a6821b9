import MotionSteps.Proofs.Json.Faults
import MotionSteps.Proofs.Report.Findings
import MotionSteps.Proofs.Step.Defaults
import MotionSteps.Proofs.Text.Lines
import MotionSteps.Report.Rendering

/-!
# The wording of findings

A finding is worded on one line. It may quote a value or the message of the reader, but both are
on one line whatever they are about. The only text that it quotes as it is is the name of an
unknown kind, which stands between quotes at the end of its message. That name is in capitals, so
it cannot pass for the last line of a report. `Lined` says both, and `WellFormed.lined` that it
holds of everything that a graph is found to be.
-/

namespace MotionSteps

open Text (breaks breaksIn lines Begins)

/-- How the last line of a report begins. -/
def verdictMark : List Char :=
  "Result:".toList

theorem verdictMark_eq : verdictMark = 'R' :: "esult:".toList := by
  decide

/-- Whether behind a line break a text begins like the last line of a report. -/
def Forges (text : List Char) : Prop :=
  '\n' :: verdictMark <:+: text

/-! ## Lines and marks -/

@[simp] theorem breaks_indented (level : Nat) (line : String) :
    breaks (indented level line) = breaks line := by
  have spaces : breaks (String.ofList (List.replicate (2 * level) ' ')) = 0 := by
    rw [Text.breaks_eq_zero_iff, String.toList_ofList]
    intro member
    cases List.eq_of_mem_replicate member
  rw [indented, Text.breaks_append, spaces, Nat.zero_add]

theorem not_forges_of_plain {text : List Char} (plain : '\n' ∉ text) : ¬Forges text :=
  fun inside => plain (inside.subset List.mem_cons_self)

theorem not_forges_of_capital {text : List Char} (capital : 'e' ∉ text) : ¬Forges text :=
  fun inside => capital (inside.subset (by decide))

/-- What is forged does not reach across a character that is not in it. -/
theorem forges_append_cons_iff {front behind : List Char} {c : Char}
    (fresh : c ∉ '\n' :: verdictMark) :
    Forges (front ++ c :: behind) ↔ Forges front ∨ Forges behind :=
  Text.infix_append_cons_iff fresh (List.cons_ne_nil _ _)

/-- A line inside a section begins with blanks. -/
theorem begins_indented_iff {level : Nat} {line : String} (inside : 0 < level) :
    Begins verdictMark (indented level line).toList ↔ Forges (indented level line).toList := by
  have blank : ∃ rest, (indented level line).toList = ' ' :: rest := by
    obtain ⟨deeper, rfl⟩ := Nat.exists_eq_add_of_lt inside
    rw [indented, String.toList_append, String.toList_ofList, Nat.mul_add, List.replicate_succ]
    exact ⟨_, List.cons_append⟩
  obtain ⟨rest, same⟩ := blank
  refine or_iff_right fun first => ?_
  rw [same, verdictMark_eq, List.cons_prefix_cons] at first
  exact absurd first.1 (by decide)

/-! ## Findings -/

/-- The line breaks that a finding brings into a report. It quotes nothing as it is but the name
of a kind. -/
def Finding.breaks : Finding → Nat
  | .unknownKind name => Text.breaks name
  | _ => 0

/-- The wording of a finding on one line, or around the name of an unknown kind. -/
inductive Finding.Worded : Finding → Prop where
  | plain {finding : Finding} (oneLine : Text.breaks finding.message = 0)
      (nothing : finding.breaks = 0) : Worded finding
  | unknown {name : String} (capital : 'e' ∉ name.toList) : Worded (.unknownKind name)

theorem Json.ReadError.breaks_message {failure : Json.ReadError}
    (spelling : failure.cause.IsSpelling) : breaks failure.message = 0 := by
  have cause : breaks failure.cause.description = 0 := by
    cases same : failure.cause with
    | missingField name | repeatedField name => rw [same] at spelling; cases spelling
    | tooFewItems found record fields => rw [same] at spelling; cases spelling
    | wrongKind found expected => rw [same] at spelling; cases spelling
    | integerTooLarge found => rw [same] at spelling; cases spelling
    | _ => rfl
  have words : breaks " at line " = 0 ∧ breaks " column " = 0 := ⟨rfl, rfl⟩
  simp [message, cause, words]

namespace StepKind

/-- Why a document is given up is said on one line. -/
theorem breaks_of_malformed {kind : StepKind} {document : Option String} {fault : DocumentFault}
    (raised : .malformed fault ∈ (kind.extractText document).issues) :
    breaks fault.description = 0 := by
  obtain ⟨outcome, reads, -, gets⟩ := kind.extraction_of_reading document
  cases outcome with
  | error issue =>
      rw [(gets.givenUp issue rfl).1, List.mem_singleton] at raised
      subst raised
      cases reads with
      | unreadable given fails =>
          exact Json.ReadError.breaks_message (Json.isSpelling_of_parse fails)
      | @notObject raw found given reads other =>
          have words : breaks "expected a JSON object, found " = 0 := by decide +kernel
          have kind : breaks found.kindName = 0 := by
            cases found <;> simp only [Json.kindName] <;> decide +kernel
          change breaks ("expected a JSON object, found " ++ found.kindName) = 0
          rw [Text.breaks_append, words, kind]
  | ok members =>
      obtain ⟨field, found, same⟩ := (gets.members members rfl).2 _ raised
      cases same

/-- Fields are named on one line. -/
theorem breaks_of_invalidField {kind : StepKind} {document : Option String} {field : String}
    {found : Json} (raised : .invalidField field found ∈ (kind.extractText document).issues) :
    breaks field = 0 := by
  obtain ⟨outcome, reads, -, gets⟩ := kind.extraction_of_reading document
  cases outcome with
  | error issue =>
      rw [(gets.givenUp issue rfl).1, List.mem_singleton] at raised
      exact absurd (raised ▸ reads) ReadsAs.not_invalidField
  | ok members =>
      rw [(gets.members members rfl).1] at raised
      have named := (members.issues_sublist kind).subset (List.mem_map_of_mem raised)
      obtain ⟨listed, member, same⟩ := List.mem_map.mp named
      have plain : ∀ field ∈ kind.recordFields, breaks field.param.name = 0 := by
        cases kind with
        | other name => exact nofun
        | _ => decide
      rw [← Option.some.inj same]
      exact plain listed member

end StepKind

namespace Finding

theorem breaks_severalStarts (count : Nat) : Text.breaks (severalStarts count).message = 0 := by
  have words : Text.breaks " START nodes found; linearization starts at the first one" = 0 := by
    decide +kernel
  change Text.breaks (Number.naturalText count ++
    " START nodes found; linearization starts at the first one") = 0
  rw [Text.breaks_append, Text.breaks_naturalText, words]

theorem breaks_fanOut (connections : Nat) : Text.breaks (fanOut connections).message = 0 := by
  have words : Text.breaks "Output has " = 0 ∧
    Text.breaks " connections; only the first is followed" = 0 := by decide +kernel
  change Text.breaks ("Output has " ++ Number.naturalText connections ++
    " connections; only the first is followed") = 0
  rw [Text.breaks_append, Text.breaks_append, Text.breaks_naturalText, words.1, words.2]

theorem worded_of_issue {kind : StepKind} {document : Option String} {issue : Issue}
    {finding : Finding} (raised : issue ∈ (kind.extractText document).issues)
    (found : issue.finding? kind = some finding) : finding.Worded := by
  cases issue with
  | missing =>
      rw [Issue.finding?, Option.ite_none_left_eq_some] at found
      rw [← Option.some.inj found.2]
      refine .plain ?_ rfl
      decide +kernel
  | malformed fault =>
      rw [← Option.some.inj found]
      refine .plain ?_ rfl
      have words : Text.breaks "Parameter data could not be parsed: " = 0 := by decide +kernel
      change Text.breaks ("Parameter data could not be parsed: " ++ fault.description) = 0
      rw [Text.breaks_append, words, StepKind.breaks_of_malformed raised]
  | invalidField field value =>
      rw [← Option.some.inj found]
      refine .plain ?_ rfl
      have words : Text.breaks "Field '" = 0 ∧ Text.breaks "' has invalid value " = 0 ∧
        Text.breaks "; default used" = 0 := by decide +kernel
      change Text.breaks ("Field '" ++ field ++ "' has invalid value " ++ value.compact ++
        "; default used") = 0
      simp only [Text.breaks_append, StepKind.breaks_of_invalidField raised, words,
        Json.breaks_compact]

theorem worded_of_params {params : Params} {finding : Finding} (found : finding ∈ params.findings) :
    finding.Worded := by
  cases params with
  | motion record =>
      simp only [Params.findings, List.mem_append, List.mem_ite_nil_right,
        List.mem_singleton] at found
      rcases found with (⟨-, rfl⟩ | ⟨-, rfl⟩) | ⟨-, rfl⟩ <;> exact .plain (by decide +kernel) rfl
  | wait record | counter record | goto record =>
      simp only [Params.findings, List.mem_ite_nil_right, List.mem_singleton] at found
      obtain ⟨-, rfl⟩ := found
      exact .plain (by decide +kernel) rfl
  | linearMove record | relativeMove record | circularMove record | passthrough record =>
      cases found

end Finding

theorem breaks_stepId (position : Nat) : breaks (stepId position) = 0 := by
  rw [Text.breaks_eq_zero_iff, stepId, String.toList_ofList]
  simp [Text.break_notMem_toDigits]

theorem NodeId.breaks_name (id : NodeId) : breaks id.name = 0 := by
  rw [name, Text.breaks_append, Text.breaks_naturalText]
  rfl

/-- The name of a kind has line breaks only if the label has that means it. -/
theorem StepKind.breaks_name_ofLabel {label : String} (plain : breaks label = 0) :
    breaks (ofLabel label).name = 0 := by
  have known : ∀ entry ∈ aliases, breaks entry.2.name = 0 := by decide
  rcases ofLabel_cases label with ⟨entry, listed, -, kind⟩ | ⟨-, kind⟩
  · rw [kind]
    exact known entry listed
  · rw [kind, name, Text.breaks_eq_zero_iff]
    intro broken
    refine Text.breaks_eq_zero_iff.mp plain ?_
    exact Text.mem_of_mem_trim (Text.break_mem_of_uppercase broken)

/-- The name of a kind is in capitals. -/
theorem StepKind.capital_name_ofLabel (label : String) : 'e' ∉ (ofLabel label).name.toList := by
  have known : ∀ entry ∈ aliases, 'e' ∉ entry.2.name.toList := by decide
  rcases ofLabel_cases label with ⟨entry, listed, -, kind⟩ | ⟨-, kind⟩
  · rw [kind]
    exact known entry listed
  · rw [kind, name]
    exact Text.small_notMem_uppercase _

/-! ## Diagnostics -/

namespace Finding

theorem breaks_code (finding : Finding) : Text.breaks finding.code = 0 := by
  cases finding <;> simp only [code] <;> decide

/-- The findings with other codes quote no name. -/
theorem breaks_of_code {finding : Finding} (other : finding.code ≠ "W008") :
    finding.breaks = 0 := by
  cases finding with
  | unknownKind name => exact absurd rfl other
  | _ => rfl

end Finding

namespace Diagnostic

/-- A diagnostic is on one line, or ends with the name of an unknown kind between quotes. -/
inductive Lined : Diagnostic → Prop where
  | plain {diagnostic : Diagnostic} (oneLine : Text.breaks diagnostic.display = 0)
      (nothing : diagnostic.finding.breaks = 0) : Lined diagnostic
  | unknown {diagnostic : Diagnostic} {front name : String}
      (quotes : diagnostic.finding = .unknownKind name)
      (shown : diagnostic.display = front ++ "'" ++ name ++ "'") (oneLine : Text.breaks front = 0)
      (capital : 'e' ∉ name.toList) : Lined diagnostic

/-- The place of a diagnostic, in front of its message. -/
theorem exists_display_eq (finding : Finding) {place : Option Place}
    (placed : ∀ there ∈ place, Text.breaks there.step = 0) :
    ∃ front, Text.breaks front = 0 ∧ display ⟨finding, place⟩ = front ++ finding.message := by
  have words : Text.breaks "[" = 0 ∧ Text.breaks "] " = 0 ∧ Text.breaks ": " = 0 := by decide
  cases place with
  | none => exact ⟨_, by simp [words, finding.breaks_code], rfl⟩
  | some there => exact ⟨_, by simp [words, finding.breaks_code, placed there rfl], rfl⟩

theorem lined_of_worded {finding : Finding} {place : Option Place} (worded : finding.Worded)
    (placed : ∀ there ∈ place, Text.breaks there.step = 0) : Lined ⟨finding, place⟩ := by
  obtain ⟨front, oneLine, shown⟩ := exists_display_eq finding placed
  cases worded with
  | plain message nothing =>
      exact .plain (by rw [shown, Text.breaks_append, oneLine, message]) nothing
  | @unknown name capital =>
      have words : Text.breaks "Unknown step type " = 0 := by decide +kernel
      have begun : Text.breaks (front ++ "Unknown step type ") = 0 := by
        rw [Text.breaks_append, oneLine, words]
      have named : display ⟨.unknownKind name, place⟩ =
          front ++ "Unknown step type " ++ "'" ++ name ++ "'" := by
        rw [shown]
        change front ++ ("Unknown step type '" ++ name ++ "'") = _
        simp only [← String.toList_inj, String.toList_append, List.append_assoc]
        rfl
      exact .unknown rfl named begun capital

theorem Lined.breaks_display {diagnostic : Diagnostic} (lined : diagnostic.Lined) :
    Text.breaks diagnostic.display = diagnostic.finding.breaks := by
  cases lined with
  | plain oneLine nothing => rw [oneLine, nothing]
  | @unknown front name quotes shown oneLine capital =>
      have quote : Text.breaks "'" = 0 := by decide
      rw [shown, quotes, Finding.breaks]
      simp only [Text.breaks_append, oneLine, quote, Nat.zero_add, Nat.add_zero]

/-- The name of an unknown kind is in capitals, so no diagnostic forges the last line. -/
theorem Lined.not_forges {diagnostic : Diagnostic} (lined : diagnostic.Lined) {front : String}
    (plain : Text.breaks front = 0) : ¬Forges (front ++ diagnostic.display).toList := by
  rw [Text.breaks_eq_zero_iff] at plain
  cases lined with
  | plain oneLine nothing =>
      rw [Text.breaks_eq_zero_iff] at oneLine
      refine not_forges_of_plain ?_
      rw [String.toList_append, List.mem_append, not_or]
      exact ⟨plain, oneLine⟩
  | @unknown begun name quotes shown oneLine capital =>
      rw [Text.breaks_eq_zero_iff] at oneLine
      have split : (front ++ diagnostic.display).toList =
          (front.toList ++ begun.toList) ++ '\x27' :: (name.toList ++ '\x27' :: []) := by
        simp [shown]
      rw [split, forges_append_cons_iff (by decide), forges_append_cons_iff (by decide)]
      rintro (begins | named | nothing)
      · refine not_forges_of_plain ?_ begins
        rw [List.mem_append, not_or]
        exact ⟨plain, oneLine⟩
      · exact not_forges_of_capital capital named
      · exact not_forges_of_plain List.not_mem_nil nothing

end Diagnostic

/-! ## What a graph is found to be -/

namespace Graph

variable {graph : Graph}

namespace WellFormed

theorem breaks_id (wellFormed : graph.WellFormed) {compiled : CompiledStep}
    (member : compiled ∈ graph.compiledSteps graph.linearize) :
    breaks compiled.step.id = 0 := by
  obtain ⟨node, -, position, -, rfl⟩ := wellFormed.mem_compiledSteps_iff.mp member
  rw [Node.compiled_id]
  exact breaks_stepId position

theorem breaks_of_stepIdOf? (wellFormed : graph.WellFormed) {id : NodeId} {name : String}
    (named : stepIdOf? (graph.compiledSteps graph.linearize) id = some name) :
    breaks name = 0 := by
  obtain ⟨compiled, found, rfl⟩ := Option.map_eq_some_iff.mp named
  exact wellFormed.breaks_id (List.mem_of_find?_eq_some found)

/-- Where a node leads is said on one line. -/
theorem breaks_outgoingOf (wellFormed : graph.WellFormed) (node : Node) :
    breaks (graph.outgoingOf (graph.compiledSteps graph.linearize) node).display = 0 := by
  have words : breaks "no output port" = 0 ∧ breaks "not connected" = 0 ∧ breaks "-> " = 0 ∧
    breaks " (first of " = 0 ∧ breaks " connections)" = 0 := by decide +kernel
  have target : ∀ id : NodeId,
      breaks ((stepIdOf? (graph.compiledSteps graph.linearize) id).getD id.name) = 0 := by
    intro id
    cases named : stepIdOf? (graph.compiledSteps graph.linearize) id with
    | none => exact id.breaks_name
    | some name => exact wellFormed.breaks_of_stepIdOf? named
  unfold outgoingOf
  split
  · split
    · exact words.2.1
    · rw [Outgoing.display]
      split <;> simp [words, target]
  · exact words.1

/-- Every finding about a step is on one line, or names the kind of the step. -/
theorem worded_of_step (wellFormed : graph.WellFormed) {compiled : CompiledStep}
    (member : compiled ∈ graph.compiledSteps graph.linearize) {finding : Finding}
    (found : finding ∈ graph.stepFindings compiled) : finding.Worded := by
  obtain ⟨node, -, position, -, rfl⟩ := wellFormed.mem_compiledSteps_iff.mp member
  rw [stepFindings, CompiledStep.findings, Node.compiled_kind, Node.compiled_issues,
    List.mem_append, List.mem_append, List.mem_append, List.mem_filterMap] at found
  rcases found with ((ofKind | ⟨issue, raised, ofIssue⟩) | ofParams) | placed
  · have capital := StepKind.capital_name_ofLabel node.typeLabel
    change 'e' ∉ node.kind.name.toList at capital
    cases kind : node.kind with
    | other name =>
        rw [kind] at ofKind capital
        rw [List.mem_singleton.mp ofKind]
        exact .unknown capital
    | _ => rw [kind] at ofKind; cases ofKind
  · exact Finding.worded_of_issue raised ofIssue
  · exact Finding.worded_of_params ofParams
  · simp only [placementFindings, List.mem_append, List.mem_ite_nil_right,
      List.mem_singleton] at placed
    rcases placed with ⟨-, rfl⟩ | ⟨-, rfl⟩
    · have words : ∀ branch, breaks (Finding.unconnected branch).message = 0 := by decide +kernel
      exact .plain (words _) rfl
    · exact .plain (Finding.breaks_fanOut _) rfl

theorem worded_of_start {finding : Finding} (found : finding ∈ graph.startFindings) :
    finding.Worded := by
  unfold startFindings at found
  split at found
  · rw [List.mem_singleton.mp found]
    exact .plain (by decide +kernel) rfl
  · cases found
  · rw [List.mem_singleton.mp found]
    exact .plain (Finding.breaks_severalStarts _) rfl

/-- Every diagnostic is on one line, or ends with the name of an unknown kind. -/
theorem lined (wellFormed : graph.WellFormed) {diagnostic : Diagnostic}
    (found : diagnostic ∈ graph.diagnostics) : diagnostic.Lined := by
  rw [diagnostics_eq, List.mem_append, List.mem_append] at found
  rcases found with (ofStart | ofStep) | ofCycle
  · obtain ⟨finding, listed, rfl⟩ := List.mem_map.mp ofStart
    exact Diagnostic.lined_of_worded (worded_of_start listed) nofun
  · obtain ⟨compiled, member, stems⟩ := List.mem_flatMap.mp ofStep
    obtain ⟨finding, listed, rfl⟩ := List.mem_map.mp stems
    refine Diagnostic.lined_of_worded (wellFormed.worded_of_step member listed) ?_
    rintro place ⟨⟩
    exact wellFormed.breaks_id member
  · obtain ⟨cycle, -, reported⟩ := List.mem_filterMap.mp ofCycle
    have named : ∀ name ∈ cycle.filterMap (stepIdOf? (graph.compiledSteps graph.linearize)),
        breaks name = 0 := by
      intro name member
      obtain ⟨id, -, found⟩ := List.mem_filterMap.mp member
      exact wellFormed.breaks_of_stepIdOf? found
    simp only [cycleDiagnostic?, Option.bind_eq_bind, Option.bind_eq_some_iff, Option.pure_def,
      Option.some.injEq] at reported
    obtain ⟨node, -, step, first, rfl⟩ := reported
    have words : breaks "Connections form a cycle through " = 0 := by decide +kernel
    refine Diagnostic.lined_of_worded (.plain ?_ rfl) ?_
    · change breaks ("Connections form a cycle through " ++ ", ".intercalate _) = 0
      rw [Text.breaks_append, words, Text.breaks_intercalate (by decide) named]
    · rintro place ⟨⟩
      exact named step (List.mem_of_mem_head? first)

end WellFormed

end Graph

end MotionSteps
