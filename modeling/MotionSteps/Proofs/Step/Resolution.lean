import Mathlib.Data.List.Forall2
import MotionSteps.Proofs.Step.Shape

/-!
# What the fields of a document resolve to

A field takes the first of its candidates that converts, in the order in which its paths are
preferred. If candidates are there and none converts, it takes its default and reports the first
one as it stands, and if none is there, it takes its default without a report. `Resolves` says so
by paths and values, and `resolves_iff` shows that it leaves no choice. `extraction_of_members`
puts the fields of each kind together: a record is resolved field by field, and its issues are
those of its fields, in their order.
-/

namespace MotionSteps

/-! ## Candidates -/

namespace Json

/-- An object wraps the value that it holds as its member `value`. -/
def Wraps (wrapper content : Json) : Prop :=
  ∃ members : Members, wrapper = .object members ∧ members.get? "value" = some content

/-- What a candidate means: the value that it wraps, or itself if it wraps none. -/
inductive Means : Json → Json → Prop where
  | wrapped {candidate content : Json} (wraps : candidate.Wraps content) : Means candidate content
  | bare {candidate : Json} (plain : ∀ content, ¬ candidate.Wraps content) :
      Means candidate candidate

namespace Members

/-- A value stands at the end of a path through objects. -/
inductive StandsAt : Members → Path → Json → Prop where
  | member {members : Members} {key : String} {value : Json}
      (held : members.get? key = some value) : StandsAt members [key] value
  | inside {members inner : Members} {key : String} {path : Path} {value : Json}
      (held : members.get? key = some (.object inner)) (below : StandsAt inner path value) :
      StandsAt members (key :: path) value

/-- A candidate stands at the end of a path, and it is not null. -/
def Offers (members : Members) (path : Path) (candidate : Json) : Prop :=
  members.StandsAt path candidate ∧ candidate ≠ .null

/-- Nothing at the end of a path converts, because nothing is there or for what it means. -/
def Fails {α : Type} (members : Members) (convert : Json → Option α) (path : Path) : Prop :=
  ∀ candidate content, members.Offers path candidate → candidate.Means content →
    convert content = none

/-- What a field resolves to, and which issue it raises. -/
inductive Resolves {α : Type} (members : Members) (field : ParamField)
    (convert : Json → Option α) (default : α) : Resolved α → Prop where
  /-- The first candidate that converts counts, whatever stands before it. -/
  | converted {before after : List Path} {path : Path} {candidate content : Json} {value : α}
      (preference : field.paths = before ++ path :: after)
      (earlier : ∀ other ∈ before, members.Fails convert other)
      (offered : members.Offers path candidate) (means : candidate.Means content)
      (converts : convert content = some value) :
      Resolves members field convert default ⟨value, []⟩
  /-- If none converts, the first one is reported as it stands. -/
  | rejected {before after : List Path} {path : Path} {first : Json}
      (preference : field.paths = before ++ path :: after)
      (earlier : ∀ other ∈ before, ∀ candidate, ¬ members.Offers other candidate)
      (offered : members.Offers path first)
      (nothing : ∀ other ∈ field.paths, members.Fails convert other) :
      Resolves members field convert default ⟨default, [.invalidField field.name first]⟩
  | absent (nowhere : ∀ path ∈ field.paths, ∀ candidate, ¬ members.Offers path candidate) :
      Resolves members field convert default ⟨default, []⟩

variable {members : Members} {path : Path} {candidate : Json}

theorem standsAt_iff : members.StandsAt path candidate ↔ members.follow? path = some candidate := by
  fun_induction follow? members path with
  | case1 members =>
      constructor
      · intro stands
        cases stands
      · intro found
        cases found
  | case2 members key =>
      constructor
      · intro stands
        cases stands with
        | member held => exact held
        | inside held below => cases below
      · exact .member
  | case3 members key path nonempty inner held inductionHypothesis =>
      rw [← inductionHypothesis]
      constructor
      · intro stands
        cases stands with
        | member value => exact absurd rfl nonempty
        | inside heldToo below =>
            obtain rfl : inner = _ := by simpa [held] using heldToo
            exact below
      · exact .inside held
  | case4 members key path nonempty noObject =>
      constructor
      · intro stands
        cases stands with
        | member value => exact absurd rfl nonempty
        | inside held below => exact absurd held (noObject _)
      · intro found
        cases found

theorem offers_iff : members.Offers path candidate ↔ members.present? path = some candidate := by
  rw [Offers, standsAt_iff, present?]
  split
  · next null =>
      rw [null]
      constructor
      · rintro ⟨same, present⟩
        exact absurd (Option.some.inj same).symm present
      · intro found
        cases found
  · next found =>
      constructor
      · exact And.left
      · intro stands
        refine ⟨stands, ?_⟩
        rintro rfl
        exact found stands

theorem present?_eq_none_iff :
    members.present? path = none ↔ ∀ candidate, ¬ members.Offers path candidate := by
  simp only [offers_iff, Option.eq_none_iff_forall_ne_some]

end Members

/-- A wrapper is taken off. -/
theorem Wraps.unwrapped_eq {candidate content : Json} (wraps : candidate.Wraps content) :
    candidate.unwrapped = content := by
  obtain ⟨members, rfl, held⟩ := wraps
  rw [unwrapped, held, Option.getD_some]

/-- What is no wrapper stays as it is. -/
theorem unwrapped_eq_self {candidate : Json} (plain : ∀ content, ¬ candidate.Wraps content) :
    candidate.unwrapped = candidate := by
  cases candidate with
  | object members =>
      cases held : Members.get? members "value" with
      | none => rw [unwrapped, held, Option.getD_none]
      | some content => exact absurd ⟨members, rfl, held⟩ (plain content)
  | _ => rfl

theorem means_iff {candidate content : Json} :
    candidate.Means content ↔ candidate.unwrapped = content := by
  constructor
  · intro means
    cases means with
    | wrapped wraps => exact wraps.unwrapped_eq
    | bare plain => exact unwrapped_eq_self plain
  · rintro rfl
    by_cases wrapper : ∃ content, candidate.Wraps content
    · obtain ⟨content, wraps⟩ := wrapper
      rw [wraps.unwrapped_eq]
      exact .wrapped wraps
    · have plain := not_exists.mp wrapper
      rw [unwrapped_eq_self plain]
      exact .bare plain

/-! ## Fields -/

namespace Members

variable {α : Type} {members : Members} {field : ParamField} {convert : Json → Option α}
  {default : α}

theorem fails_iff {path : Path} :
    members.Fails convert path ↔
      ((members.present? path).bind fun candidate => convert candidate.unwrapped) = none := by
  simp only [Fails, offers_iff, means_iff, Option.bind_eq_none_iff]
  constructor
  · intro fails candidate offered
    exact fails candidate _ offered rfl
  · rintro fails candidate _ offered rfl
    exact fails candidate offered

/-- The candidates of a field, path by path. -/
theorem resolve_eq (members : Members) (field : ParamField) (convert : Json → Option α)
    (default : α) :
    members.resolve field convert default =
      match field.paths.findSome? fun path =>
          (members.present? path).bind fun candidate => convert candidate.unwrapped with
      | some value => ⟨value, []⟩
      | none =>
          match field.paths.findSome? members.present? with
          | some first => ⟨default, [.invalidField field.name first]⟩
          | none => ⟨default, []⟩ := by
  have converted : ((field.paths.filterMap members.present?).findSome? fun candidate =>
      convert candidate.unwrapped) =
        field.paths.findSome? fun path =>
          (members.present? path).bind fun candidate => convert candidate.unwrapped := by
    rw [← List.head?_filterMap, List.filterMap_filterMap, List.head?_filterMap]
  simp only [resolve, converted, List.head?_filterMap]
  rfl

/-- The rules for a field leave no choice and no gap. -/
theorem resolves_iff {resolved : Resolved α} :
    members.Resolves field convert default resolved ↔
      resolved = members.resolve field convert default := by
  rw [resolve_eq]
  constructor
  · intro resolves
    cases resolves with
    | @converted before after path candidate content value preference earlier offered means
        converts =>
        have here : ((members.present? path).bind fun candidate => convert candidate.unwrapped) =
            some value := by
          rw [offers_iff.mp offered, Option.bind_some, means_iff.mp means, converts]
        rw [List.findSome?_eq_some_iff.mpr ⟨before, path, after, preference, here,
          fun other member => fails_iff.mp (earlier other member)⟩]
    | @rejected before after path first preference earlier offered nothing =>
        rw [List.findSome?_eq_none_iff.mpr fun other member => fails_iff.mp (nothing other member),
          List.findSome?_eq_some_iff.mpr ⟨before, path, after, preference, offers_iff.mp offered,
            fun other member => present?_eq_none_iff.mpr (earlier other member)⟩]
    | absent nowhere =>
        rw [List.findSome?_eq_none_iff.mpr fun other member => fails_iff.mp
            fun candidate _ offered => absurd offered (nowhere other member candidate),
          List.findSome?_eq_none_iff.mpr fun other member =>
            present?_eq_none_iff.mpr (nowhere other member)]
  · rintro rfl
    split
    · next value found =>
        obtain ⟨before, path, after, preference, here, earlier⟩ :=
          List.findSome?_eq_some_iff.mp found
        obtain ⟨candidate, offered, converts⟩ := Option.bind_eq_some_iff.mp here
        exact .converted preference (fun other member => fails_iff.mpr (earlier other member))
          (offers_iff.mpr offered) (means_iff.mpr rfl) converts
    · next nothing =>
        have fails : ∀ other ∈ field.paths, members.Fails convert other := fun other member =>
          fails_iff.mpr (List.findSome?_eq_none_iff.mp nothing other member)
        split
        · next first found =>
            obtain ⟨before, path, after, preference, here, earlier⟩ :=
              List.findSome?_eq_some_iff.mp found
            exact .rejected preference
              (fun other member => present?_eq_none_iff.mp (earlier other member))
              (offers_iff.mpr here) fails
        · next nowhere =>
            exact .absent fun path member =>
              present?_eq_none_iff.mp (List.findSome?_eq_none_iff.mp nowhere path member)

end Members

end Json

/-! ## Records -/

/-- The value of a field of a record. -/
inductive FieldValue where
  | number (value : Float)
  | integer (value : Int)
  | text (value : String)
  | direction (value : Direction)
  deriving DecidableEq, Repr

/-- A field of a record: into what its candidates are converted, and its default. -/
inductive RecordField where
  | number (field : ParamField) (default : Float)
  | integer (field : ParamField) (default : Int)
  | text (field : ParamField) (default : String)
  /-- The sense of an arc is a text that has to mean a direction. -/
  | direction
  deriving Repr

/-- The name and the paths of a field of a record. -/
def RecordField.param : RecordField → ParamField
  | .number field _ | .integer field _ | .text field _ => field
  | .direction => .direction

/-- The fields of the record of a kind, in the order of the record. A kind without a record has
none. -/
def StepKind.recordFields : StepKind → List RecordField
  | .motion => [.text .axis "", .number .position 0, .number .speed 0]
  | .wait => [.integer .delay 0]
  | .linearMove =>
      [.number .targetX 0, .number .targetY 0, .number .targetZ 0, .number .speed 0]
  | .relativeMove => [.text .axis "", .number .distance 0, .number .speed 0]
  | .circularMove =>
      [.number .centerX 0, .number .centerY 0, .number .endX 0, .number .endY 0, .direction]
  | .counter =>
      [.text .counterName "", .integer .counterFirst 0, .integer .counterTarget 0,
        .integer .counterIncrement 1]
  | .goto => [.text .jumpTarget "", .text .description ""]
  | .start | .finish | .io | .other _ => []

/-- The values of the fields of a record, in the order of the record. -/
def Params.fieldValues : Params → List FieldValue
  | .motion record => [.text record.axis, .number record.position, .number record.speed]
  | .wait record => [.integer record.delay]
  | .linearMove record =>
      [.number record.target.x, .number record.target.y, .number record.target.z,
        .number record.speed]
  | .relativeMove record => [.text record.axis, .number record.distance, .number record.speed]
  | .circularMove record =>
      [.number record.center.x, .number record.center.y, .number record.target.x,
        .number record.target.y, .direction record.direction]
  | .counter record =>
      [.text record.name, .integer record.first, .integer record.target,
        .integer record.increment]
  | .goto record => [.text record.target, .text record.description]
  | .passthrough _ => []

/-- The field that an issue is about. -/
def Issue.field? : Issue → Option String
  | .invalidField field _ => some field
  | .missing | .malformed _ => none

namespace Json.Members

/-- What a field of a record resolves to, and which issue it raises. -/
inductive ResolvesField (members : Members) : RecordField → Resolved FieldValue → Prop where
  | number {field : ParamField} {default value : Float} {issues : List Issue}
      (resolves : members.Resolves field asNumber? default ⟨value, issues⟩) :
      ResolvesField members (.number field default) ⟨.number value, issues⟩
  /-- The fraction of a number is dropped. -/
  | integer {field : ParamField} {default value : Int} {issues : List Issue}
      (resolves : members.Resolves field
        (fun found => found.asNumber?.map MotionSteps.Number.toInteger) default ⟨value, issues⟩) :
      ResolvesField members (.integer field default) ⟨.integer value, issues⟩
  | text {field : ParamField} {default value : String} {issues : List Issue}
      (resolves : members.Resolves field asText? default ⟨value, issues⟩) :
      ResolvesField members (.text field default) ⟨.text value, issues⟩
  /-- A text that is a direction but for capitals and blanks at its ends is kept. -/
  | direction {text : String} {direction : Direction} {issues : List Issue}
      (resolves : members.Resolves .direction asText? "CW" ⟨text, issues⟩)
      (kept : Text.uppercase (Text.trim text) = direction.name) :
      ResolvesField members .direction ⟨.direction direction, issues⟩
  /-- Any other text has raised no issue so far. It is reported and taken for clockwise. -/
  | noDirection {text : String}
      (resolves : members.Resolves .direction asText? "CW" ⟨text, []⟩)
      (other : ∀ direction : Direction, Text.uppercase (Text.trim text) ≠ direction.name) :
      ResolvesField members .direction
        ⟨.direction .clockwise, [.invalidField "direction" (.string text)]⟩

/-- A field of a record, resolved. -/
def resolveField (members : Members) : RecordField → Resolved FieldValue
  | .number field default => FieldValue.number <$> members.number field default
  | .integer field default => FieldValue.integer <$> members.integer field default
  | .text field default => FieldValue.text <$> members.text field default
  | .direction => FieldValue.direction <$> members.direction

variable {members : Members}

/-- A field that raises an issue has its default. -/
theorem Resolves.issues_eq_nil {α : Type} {field : ParamField} {convert : Json → Option α}
    {default value : α} {issues : List Issue}
    (resolves : members.Resolves field convert default ⟨value, issues⟩) (other : value ≠ default) :
    issues = [] := by
  cases resolves with
  | converted => rfl
  | rejected => exact absurd rfl other
  | absent => rfl

/-- A field raises at most one issue, which names it. -/
theorem Resolves.issues_fit {α : Type} {field : ParamField} {convert : Json → Option α}
    {default : α} {resolved : Resolved α}
    (resolves : members.Resolves field convert default resolved) :
    (resolved.issues.map Issue.field?).Sublist [some field.name] := by
  cases resolves with
  | converted => exact List.nil_sublist _
  | rejected => exact List.Sublist.refl _
  | absent => exact List.nil_sublist _

end Json.Members

/-- A text is a direction when it is the name of that direction but for capitals and blanks. -/
theorem Direction.ofText?_eq_some_iff {text : String} {direction : Direction} :
    Direction.ofText? text = some direction ↔
      Text.uppercase (Text.trim text) = direction.name := by
  simp only [ofText?, beq_iff_eq]
  split
  · next clockwise =>
      rw [clockwise]
      cases direction <;> simp [name]
  · next noClockwise =>
      split
      · next counterclockwise =>
          rw [counterclockwise]
          cases direction <;> simp [name]
      · next noCounterclockwise => cases direction <;> simp [name, noClockwise, noCounterclockwise]

theorem Direction.ofText?_eq_none_iff {text : String} :
    Direction.ofText? text = none ↔
      ∀ direction : Direction, Text.uppercase (Text.trim text) ≠ direction.name := by
  simp only [Option.eq_none_iff_forall_ne_some, ne_eq, ofText?_eq_some_iff]

namespace Resolved

variable {α β : Type}

theorem map_eq (change : α → β) (resolved : Resolved α) :
    change <$> resolved = ⟨change resolved.value, resolved.issues⟩ :=
  congrArg (Resolved.mk (change resolved.value)) (List.append_nil resolved.issues)

end Resolved

namespace Json.Members

variable {members : Members}

/-- A direction field is a text field whose text has to mean a direction. -/
theorem direction_eq {text : String} {issues : List Issue}
    (resolves : members.Resolves .direction asText? "CW" ⟨text, issues⟩) :
    members.direction =
      match Direction.ofText? text with
      | some found => ⟨found, issues⟩
      | none => ⟨.clockwise, issues ++ [.invalidField "direction" (.string text)]⟩ := by
  have same : members.text .direction Direction.clockwise.name = ⟨text, issues⟩ :=
    (resolves_iff.mp resolves).symm
  simp only [direction, same, bind]
  cases Direction.ofText? text with
  | some found => exact congrArg (Resolved.mk found) (List.append_nil issues)
  | none => rfl

/-- The rules for a field of a record leave no choice and no gap. -/
theorem resolvesField_iff {field : RecordField} {resolved : Resolved FieldValue} :
    members.ResolvesField field resolved ↔ resolved = members.resolveField field := by
  constructor
  · intro resolves
    cases resolves with
    | number resolves =>
        rw [resolveField, number, ← resolves_iff.mp resolves, Resolved.map_eq]
    | integer resolves =>
        rw [resolveField, integer, ← resolves_iff.mp resolves, Resolved.map_eq]
    | text resolves =>
        rw [resolveField, Members.text, ← resolves_iff.mp resolves, Resolved.map_eq]
    | direction resolves kept =>
        rw [resolveField, direction_eq resolves, Direction.ofText?_eq_some_iff.mpr kept,
          Resolved.map_eq]
    | noDirection resolves other =>
        have nothing := Direction.ofText?_eq_none_iff.mpr other
        rw [resolveField, direction_eq resolves, nothing, Resolved.map_eq, List.nil_append]
  · rintro rfl
    cases field with
    | number field default =>
        cases found : members.number field default with
        | mk value issues =>
            rw [resolveField, found, Resolved.map_eq]
            exact .number (resolves_iff.mpr found.symm)
    | integer field default =>
        cases found : members.integer field default with
        | mk value issues =>
            rw [resolveField, found, Resolved.map_eq]
            exact .integer (resolves_iff.mpr found.symm)
    | text field default =>
        cases found : members.text field default with
        | mk value issues =>
            rw [resolveField, found, Resolved.map_eq]
            exact .text (resolves_iff.mpr found.symm)
    | direction =>
        cases found : members.text .direction "CW" with
        | mk text issues =>
            have resolves := resolves_iff.mpr found.symm
            rw [resolveField, direction_eq resolves]
            cases meant : Direction.ofText? text with
            | some direction =>
                simp only [Resolved.map_eq]
                exact .direction resolves (Direction.ofText?_eq_some_iff.mp meant)
            | none =>
                have other := Direction.ofText?_eq_none_iff.mp meant
                -- The default is a direction, so the text is a candidate that converted.
                obtain rfl : issues = [] := by
                  refine resolves.issues_eq_nil ?_
                  rintro rfl
                  exact other .clockwise (by decide +kernel)
                simp only [Resolved.map_eq]
                exact .noDirection resolves other

/-- A record is resolved field by field, in the order of its fields. -/
theorem params_eq_fields (members : Members) (kind : StepKind) :
    (members.params kind).value.fieldValues =
        kind.recordFields.map (fun field => (members.resolveField field).value) ∧
      (members.params kind).issues =
        kind.recordFields.flatMap (fun field => (members.resolveField field).issues) := by
  -- Every kind asks for its fields one after the other, as they stand in its record.
  cases kind <;>
    simp [params, StepKind.recordFields, Params.fieldValues, resolveField, Resolved.map_eq]

theorem ResolvesField.issues_fit {field : RecordField} {resolved : Resolved FieldValue}
    (resolves : members.ResolvesField field resolved) :
    (resolved.issues.map Issue.field?).Sublist [some field.param.name] := by
  cases resolves with
  | number resolves => exact resolves.issues_fit
  | integer resolves => exact resolves.issues_fit
  | text resolves => exact resolves.issues_fit
  | direction resolves => exact resolves.issues_fit
  | noDirection => exact List.Sublist.refl _

/-- The issues of a record are about its fields, in their order, and no two are about one. -/
theorem issues_sublist (members : Members) (kind : StepKind) :
    ((members.params kind).issues.map Issue.field?).Sublist
      (kind.recordFields.map fun field => some field.param.name) := by
  rw [(members.params_eq_fields kind).2, List.map_flatMap]
  induction kind.recordFields with
  | nil => exact List.Sublist.refl _
  | cons field fields inductionHypothesis =>
      rw [List.flatMap_cons, List.map_cons]
      exact (resolvesField_iff.mpr rfl).issues_fit.append inductionHypothesis

/-- An object is found under a key exactly if it stands there. -/
theorem object?_eq_some_iff {inner : Members} {key : String} :
    members.object? [key] = some inner ↔ members.get? key = some (.object inner) := by
  rw [object?, present?, follow?]
  cases members.get? key with
  | none => simp
  | some value => cases value <;> simp [Json.members?]

end Json.Members

/-- No two fields of a record have one name. -/
theorem StepKind.recordFields_nodup (kind : StepKind) :
    (kind.recordFields.map fun field => field.param.name).Nodup := by
  cases kind with
  | other name => exact List.nodup_nil
  | _ => decide

/-- A kind without a record passes an object on. -/
theorem StepKind.extract_of_recordFields_eq_nil {kind : StepKind} {members : Json.Members}
    (bare : kind.recordFields = []) :
    (kind.extract (some (.object members))).value =
      .passthrough ((members.object? ["params"]).getD []) := by
  cases kind with
  | start | finish | io | other => rfl
  | motion | wait | linearMove | relativeMove | circularMove | counter | goto => cases bare

/-- A record is resolved field by field. The first candidate of a field that converts is its value,
and a field whose candidates all fail is reported with the first of them, whatever the other fields
hold. A kind without a record passes on the object that its document holds. -/
theorem StepKind.extraction_of_members (kind : StepKind) (members : Json.Members) :
    Params.Fits kind (kind.extract (some (.object members))).value ∧
      (∃ outcomes : List (Resolved FieldValue),
        (∀ others, List.Forall₂ members.ResolvesField kind.recordFields others ↔
          others = outcomes) ∧
        (kind.extract (some (.object members))).value.fieldValues = outcomes.map Resolved.value ∧
        (kind.extract (some (.object members))).issues = outcomes.flatMap Resolved.issues) ∧
      (kind.recordFields.map fun field => field.param.name).Nodup ∧
      ((kind.extract (some (.object members))).issues.map Issue.field?).Sublist
        (kind.recordFields.map fun field => some field.param.name) ∧
      (kind.recordFields = [] →
        (∀ passed, members.get? "params" = some (.object passed) →
          (kind.extract (some (.object members))).value = .passthrough passed) ∧
        ((∀ passed, members.get? "params" ≠ some (.object passed)) →
          (kind.extract (some (.object members))).value = .passthrough [])) := by
  have fields := members.params_eq_fields kind
  refine ⟨members.params_fits kind, ⟨kind.recordFields.map members.resolveField, ?_, ?_, ?_⟩,
    kind.recordFields_nodup, members.issues_sublist kind, ?_⟩
  · intro others
    have rules : members.ResolvesField =
        fun field resolved => members.resolveField field = resolved := by
      funext field resolved
      exact propext (Json.Members.resolvesField_iff.trans eq_comm)
    rw [rules, ← List.forall₂_map_left_iff, List.forall₂_eq_eq_eq, eq_comm]
  · rw [List.map_map]
    exact fields.1
  · rw [List.flatMap_map]
    exact fields.2
  · intro bare
    rw [extract_of_recordFields_eq_nil bare]
    constructor
    · intro passed held
      rw [Json.Members.object?_eq_some_iff.mpr held, Option.getD_some]
    · intro noObject
      have nowhere : members.object? ["params"] = none :=
        Option.eq_none_iff_forall_ne_some.mpr fun passed found =>
          noObject passed (Json.Members.object?_eq_some_iff.mp found)
      rw [nowhere, Option.getD_none]

/-- The members of a document of an arc. Its center lies at a wrapped text that is no number, or
else at one that is, and an array. Its direction is an object, or else a text that is none. -/
def looseArc : Json.Members :=
  [("center", .object
      [("X", .object [("unit", .string "mm"), ("value", .string "left")]),
        ("Y", .null), ("x", .object [("value", .string " 3.5 ")])]),
    ("center_y", .array [.number (.integer 1)]),
    ("dir", .string "left"),
    ("direction", .object [("unit", .string "rad")]),
    ("end", .object [("X", .number (.integer 7))])]

theorem StepKind.extraction_of_looseArc :
    ∃ outcomes : List (Resolved FieldValue),
      List.Forall₂ looseArc.ResolvesField (StepKind.recordFields .circularMove) outcomes ∧
      outcomes.map Resolved.value =
        [.number 3.5, .number 0, .number 7, .number 0, .direction .clockwise] ∧
      (outcomes.flatMap Resolved.issues).map Issue.field? =
        [some "center.Y", some "direction"] := by
  obtain ⟨-, ⟨outcomes, rules, values, issues⟩, -⟩ :=
    StepKind.extraction_of_members .circularMove looseArc
  refine ⟨outcomes, (rules outcomes).mpr rfl, ?_, ?_⟩
  · rw [← values]
    decide +kernel
  · rw [← issues]
    decide +kernel

end MotionSteps
