import MotionSteps.Graph.Basic
import MotionSteps.Proofs.Step.Resolution

/-!
# The issues of a document

The members of an object raise issues about single fields only, whatever the kind of the step.
So an issue that says that there is no document comes from the place where that is found out,
and `missing_mem_extractText_iff` says when: if there is no text, or one of blanks.
-/

namespace MotionSteps

/-- A field has candidates, none of which converts. -/
def Issue.IsField (issue : Issue) : Prop :=
  ∃ field found, issue = .invalidField field found

/-- Nothing went wrong on the way to a value but with single fields. -/
def Resolved.FieldsOnly {α : Type} (resolved : Resolved α) : Prop :=
  ∀ issue ∈ resolved.issues, issue.IsField

/-- The members of an object raise issues about single fields only, those of the record. -/
theorem Json.Members.fieldsOnly_params (members : Json.Members) (kind : StepKind) :
    (members.params kind).FieldsOnly := by
  intro issue raised
  have named := (members.issues_sublist kind).subset (List.mem_map_of_mem raised)
  obtain ⟨field, -, same⟩ := List.mem_map.mp named
  cases issue with
  | invalidField field found => exact ⟨field, found, rfl⟩
  | missing => cases same
  | malformed fault => cases same

theorem Issue.not_isField_missing : ¬ Issue.missing.IsField := by
  rintro ⟨field, found, same⟩
  cases same

namespace StepKind

variable {kind : StepKind}

/-- Defaults are the parameters of an object without members, with the one issue that made
them necessary. -/
theorem missing_mem_defaultParams_iff {issue : Issue} :
    .missing ∈ (kind.defaultParams issue).issues ↔ issue = .missing := by
  have fields := Json.Members.fieldsOnly_params [] kind
  simp only [defaultParams, List.mem_cons]
  constructor
  · rintro (same | raised)
    · exact same.symm
    · exact absurd (fields _ raised) Issue.not_isField_missing
  · rintro rfl
    exact .inl rfl

theorem missing_mem_extract_iff {document : Option Json} :
    .missing ∈ (kind.extract document).issues ↔ document = none := by
  fun_cases extract kind document with
  | case1 => simp [missing_mem_defaultParams_iff]
  | case2 members =>
      simp only [reduceCtorEq, iff_false]
      exact fun raised =>
        Issue.not_isField_missing (Json.Members.fieldsOnly_params members kind _ raised)
  | case3 found notObject => simp [missing_mem_defaultParams_iff]

/-- A document is reported as missing exactly when there is none but blanks. -/
theorem missing_mem_extractText_iff {document : Option String} :
    .missing ∈ (kind.extractText document).issues ↔
      document.any (fun text => !(Text.trim text).isEmpty) = false := by
  fun_cases extractText kind document with
  | case1 => simp [missing_mem_extract_iff]
  | case2 raw text blank => simp [missing_mem_extract_iff, show (Text.trim raw).isEmpty from blank]
  | case3 raw text given value readable =>
      simp [missing_mem_extract_iff, show ¬ (Text.trim raw).isEmpty from given]
  | case4 raw text given error unreadable =>
      simp [missing_mem_defaultParams_iff, show ¬ (Text.trim raw).isEmpty from given]

end StepKind

/-- A node has a document unless extraction reports that it is missing. -/
theorem Node.hasDocument_eq_false_iff (node : Node) :
    node.hasDocument = false ↔ .missing ∈ (node.kind.extractText node.document).issues :=
  StepKind.missing_mem_extractText_iff.symm

end MotionSteps
