import MotionSteps.Proofs.Step.Issues

/-!
# Documents that are given up

The text of a document comes to the members of an object, or it is given up: because there is
none, because it is no JSON, or because it is no object. `ReadsAs` says which. A document that
is given up gives the parameters of the empty object, and the one issue that says why: the
defaults raise none of their own, not even the direction, whose default is read as if it had
been given. `extraction_of_reading` states this of every kind of step and every text.
-/

namespace MotionSteps

/-- What the text of a document comes to: members, or the issue for which it is given up. -/
inductive ReadsAs : Option String → Except Issue Json.Members → Prop where
  | absent : ReadsAs none (.error .missing)
  | blank {raw : String} (blank : Text.Blank raw) : ReadsAs (some raw) (.error .missing)
  | unreadable {raw : String} {error : Json.ReadError} (given : ¬ Text.Blank raw)
      (fails : Json.parse (Text.trim raw) = .error error) :
      ReadsAs (some raw) (.error (.malformed (.unreadable error)))
  | notObject {raw : String} {found : Json} (given : ¬ Text.Blank raw)
      (reads : Json.parse (Text.trim raw) = .ok found)
      (other : ∀ members, found ≠ .object members) :
      ReadsAs (some raw) (.error (.malformed (.notObject found)))
  | members {raw : String} {members : Json.Members} (given : ¬ Text.Blank raw)
      (reads : Json.parse (Text.trim raw) = .ok (.object members)) :
      ReadsAs (some raw) (.ok members)

/-- What a step of a kind gets from a document. -/
structure StepKind.GetsFrom (kind : StepKind) (outcome : Except Issue Json.Members)
    (resolved : Resolved Params) : Prop where
  givenUp : ∀ issue, outcome = .error issue →
    resolved.issues = [issue] ∧
      resolved.value = (kind.extract (some (.object []))).value ∧
      resolved.value = (kind.extractText (some "\x7b\x7d")).value
  members : ∀ members, outcome = .ok members →
    resolved = kind.extract (some (.object members)) ∧ resolved.FieldsOnly

/-! ## Defaults -/

namespace Json.Members

theorem present?_nil (path : Path) : present? [] path = none := by
  rw [present?]
  cases path with
  | nil => rfl
  | cons key rest => cases rest <;> rfl

/-- Without members a field has its default, and nothing is wrong with it. -/
theorem resolve_nil {α : Type} (field : ParamField) (convert : Json → Option α) (default : α) :
    resolve [] field convert default = pure default := by
  have nothing : field.paths.filterMap (present? []) = [] :=
    List.filterMap_eq_nil_iff.mpr fun path _ => present?_nil path
  rw [resolve, nothing]
  rfl

/-- The direction of an arc is looked at even where it is the default. -/
theorem direction_nil : direction [] = pure .clockwise := by
  have absent : Resolves [] .direction asText? "CW" ⟨"CW", []⟩ :=
    resolves_iff.mpr (resolve_nil _ _ _).symm
  have kept : Text.uppercase (Text.trim "CW") = Direction.clockwise.name := by decide +kernel
  rw [direction_eq absent, Direction.ofText?_eq_some_iff.mpr kept]
  rfl

theorem issues_params_nil (kind : StepKind) : (params [] kind).issues = [] := by
  rw [(params_eq_fields [] kind).2, List.flatMap_eq_nil_iff]
  intro field _
  cases field with
  | number field default => rw [resolveField, number, resolve_nil]; rfl
  | integer field default => rw [resolveField, integer, resolve_nil]; rfl
  | text field default => rw [resolveField, text, resolve_nil]; rfl
  | direction => rw [resolveField, direction_nil]; rfl

end Json.Members

namespace StepKind

theorem defaultParams_eq (kind : StepKind) (issue : Issue) :
    kind.defaultParams issue = ⟨(kind.extract (some (.object []))).value, [issue]⟩ := by
  rw [defaultParams, Json.Members.issues_params_nil, extract]

end StepKind

/-! ## Readings -/

/-- What the text of a document comes to, computed. -/
def documentReading : Option String → Except Issue Json.Members
  | none => .error .missing
  | some raw =>
      if (Text.trim raw).isEmpty then .error .missing
      else
        match Json.parse (Text.trim raw) with
        | .error error => .error (.malformed (.unreadable error))
        | .ok (.object members) => .ok members
        | .ok found => .error (.malformed (.notObject found))

/-- A document is read in one way, and only in one. -/
theorem readsAs_iff {document : Option String} {outcome : Except Issue Json.Members} :
    ReadsAs document outcome ↔ outcome = documentReading document := by
  constructor
  · intro reads
    cases reads with
    | absent => rfl
    | blank blank => simp [documentReading, blank]
    | unreadable given fails => simp [documentReading, given, fails]
    | notObject given reads other =>
        rename_i found
        cases found with
        | object members => exact absurd rfl (other members)
        | _ => simp [documentReading, given, reads]
    | members given reads => simp [documentReading, given, reads]
  · rintro rfl
    fun_cases documentReading document with
    | case1 => exact .absent
    | case2 raw blank => exact .blank (by simpa using blank)
    | case3 raw given error fails => exact .unreadable (by simpa using given) fails
    | case4 raw given members reads => exact .members (by simpa using given) reads
    | case5 raw given found other reads =>
        exact .notObject (by simpa using given) reads other

/-- A text comes to members exactly when what is left of it once trimmed is their object. -/
theorem readsAs_members_iff {raw : String} {members : Json.Members} :
    ReadsAs (some raw) (.ok members) ↔ Json.parse (Text.trim raw) = .ok (.object members) := by
  constructor
  · intro comes
    cases comes with
    | members _ reads => exact reads
  · intro reads
    refine .members (fun blank => ?_) reads
    rw [(Text.trim_eq_empty_iff raw).mpr blank] at reads
    cases reads

/-- The issues for which a document is given up are about the whole of it. -/
theorem ReadsAs.not_invalidField {document : Option String} {field : String} {found : Json} :
    ¬ ReadsAs document (.error (.invalidField field found)) := by
  intro reads
  cases reads

/-- A text whose value has members is read as an object. -/
theorem Json.parse_of_members? {text : String} {members : Members}
    (found : (Json.parse text).toOption.bind members? = some members) :
    Json.parse text = .ok (.object members) := by
  cases parsed : Json.parse text with
  | error error => rw [parsed] at found; cases found
  | ok value =>
      rw [parsed] at found
      cases value with
      | object members => exact congrArg _ (congrArg _ (Option.some.inj found))
      | _ => cases found

theorem readsAs_emptyObject : ReadsAs (some "\x7b\x7d") (.ok []) := by
  have given : Text.trim "\x7b\x7d" ≠ "" := by decide +kernel
  have read : ((Json.parse (Text.trim "\x7b\x7d")).toOption.bind Json.members?).map List.length =
      some 0 := by decide +kernel
  obtain ⟨members, found, none⟩ := Option.map_eq_some_iff.mp read
  obtain rfl := List.length_eq_zero_iff.mp none
  exact .members (fun blank => given ((Text.trim_eq_empty_iff _).mpr blank))
    (Json.parse_of_members? found)

namespace StepKind

/-- The parameters of a step are those of the members that its document comes to, or the
defaults. -/
theorem extractText_eq (kind : StepKind) (document : Option String) :
    kind.extractText document =
      match documentReading document with
      | .error issue => kind.defaultParams issue
      | .ok members => members.params kind := by
  fun_cases documentReading document with
  | case1 => rfl
  | case2 raw blank => rw [extractText, if_pos blank]; rfl
  | case3 raw given error fails => simp only [extractText, if_neg given, fails]
  | case4 raw given members reads => simp only [extractText, if_neg given, reads, extract]
  | case5 raw given found other reads =>
      simp only [extractText, if_neg given, reads]
      cases found with
      | object members => exact absurd rfl (other members)
      | _ => rfl

/-- Every text is read in one way. When it is given up, the one issue says why, and the
parameters are those of the empty object. Otherwise only single fields raise issues. -/
theorem extraction_of_reading (kind : StepKind) (document : Option String) :
    ∃ outcome, ReadsAs document outcome ∧ (∀ other, ReadsAs document other → other = outcome) ∧
      kind.GetsFrom outcome (kind.extractText document) := by
  refine ⟨documentReading document, readsAs_iff.mpr rfl, fun other => readsAs_iff.mp, ?_⟩
  have emptyObject : documentReading (some "\x7b\x7d") = .ok [] :=
    (readsAs_iff.mp readsAs_emptyObject).symm
  constructor
  · intro issue givenUp
    have defaults : kind.extractText document = kind.defaultParams issue := by
      rw [extractText_eq, givenUp]
    rw [defaults, defaultParams_eq, extractText_eq, emptyObject]
    exact ⟨rfl, rfl, rfl⟩
  · intro members reads
    have resolved : kind.extractText document = members.params kind := by
      rw [extractText_eq, reads]
    rw [resolved]
    exact ⟨rfl, members.fieldsOnly_params kind⟩

end StepKind

end MotionSteps
