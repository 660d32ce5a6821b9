import MotionSteps.Proofs.Step.Resolution

/-!
# Wrapped and bare values

It makes no difference whether a document holds the candidates of a field as they are or wrapped
together with their units. Extraction asks a document only for what its candidates mean, so two
documents that agree on this are resolved alike (`resolve_of_agreesOn`). No candidate of a record
stands inside another one, which is why wrapping one candidate leaves all others where they are.
`extract_of_wrapped` concludes that wrapping any of them changes no parameter and no issue but for
the value that the issue reports.
-/

namespace MotionSteps

namespace Json.Members

/-! ## Replacing a value -/

/-- The members with another value at the end of a path, if objects lead there. -/
def replace (value : Json) : Members → Path → Members
  | members, [] => members
  | members, [key] => members.insert key value
  | members, key :: path =>
      match members.get? key with
      | some (.object inner) => members.insert key (.object (replace value inner path))
      | _ => members

/-- The members with other values at the ends of paths, one after the other. -/
def replaceAll (members : Members) (entries : List (Path × Json)) : Members :=
  entries.foldl (fun changed entry => changed.replace entry.2 entry.1) members

theorem follow?_cons {members : Members} {key : String} {path : Path} (nonempty : path ≠ []) :
    members.follow? (key :: path) =
      ((members.get? key).bind Json.members?).bind fun inner => inner.follow? path := by
  rw [follow?]
  · cases members.get? key with
    | none => rfl
    | some value => cases value <;> rfl
  · exact nonempty

/-- A path asks an object for its first key only. -/
theorem follow?_congr {first second : Members} {key : String} {path : Path}
    (same : first.get? key = second.get? key) :
    first.follow? (key :: path) = second.follow? (key :: path) := by
  cases path with
  | nil => exact same
  | cons next rest =>
      rw [follow?_cons (List.cons_ne_nil _ _), follow?_cons (List.cons_ne_nil _ _), same]

/-- A value that was put at the end of a path is found there. -/
theorem follow?_replace_self {members : Members} {path : Path} {old : Json} (value : Json)
    (found : members.follow? path = some old) :
    (members.replace value path).follow? path = some value := by
  fun_induction replace value members path with
  | case1 members => cases found
  | case2 members key => exact get?_insert_self key value members
  | case3 members key path nonempty inner held inductionHypothesis =>
      rw [follow?_cons nonempty, held] at found
      rw [follow?_cons nonempty, get?_insert_self]
      exact inductionHypothesis found
  | case4 members key path nonempty noObject =>
      rw [follow?_cons nonempty] at found
      obtain ⟨inner, object, -⟩ := Option.bind_eq_some_iff.mp found
      obtain ⟨held, there, isObject⟩ := Option.bind_eq_some_iff.mp object
      cases held with
      | object members => exact absurd there (noObject members)
      | _ => cases isObject

/-- Putting a value at the end of a path leaves alone what stands at all other paths that lead
neither to it nor into it. -/
theorem follow?_replace_of_apart {members : Members} {path other : Path} (value : Json)
    (outside : ¬ path <+: other) (within : ¬ other <+: path) :
    (members.replace value path).follow? other = members.follow? other := by
  fun_induction replace value members path generalizing other with
  | case1 members => rfl
  | case2 members key =>
      cases other with
      | nil => rfl
      | cons first rest =>
          have differs : first ≠ key := by
            rintro rfl
            exact outside (List.prefix_append [first] rest)
          exact follow?_congr (get?_insert_of_ne value members differs)
  | case3 members key path nonempty inner held inductionHypothesis =>
      cases other with
      | nil => rfl
      | cons first rest =>
          by_cases same : first = key
          · obtain rfl := same
            rw [List.cons_prefix_cons] at outside within
            -- Both paths lead into the same object, so they part inside it.
            have below : rest ≠ [] := by
              rintro rfl
              exact within ⟨rfl, List.nil_prefix⟩
            rw [follow?_cons below, follow?_cons below, get?_insert_self, held]
            exact inductionHypothesis (fun inside => outside ⟨rfl, inside⟩)
              fun inside => within ⟨rfl, inside⟩
          · exact follow?_congr (get?_insert_of_ne _ members same)
  | case4 members key path nonempty noObject => rfl

end Json.Members

/-! ## Documents that agree -/

/-- An issue without the wrapper of the value that it reports. -/
def Issue.bare : Issue → Issue
  | .invalidField field found => .invalidField field found.unwrapped
  | .missing => .missing
  | .malformed fault => .malformed fault

/-- A value with its issues, none of which shows a wrapper. -/
def Resolved.bare {α : Type} (resolved : Resolved α) : Resolved α :=
  ⟨resolved.value, resolved.issues.map Issue.bare⟩

namespace Json.Members

/-- Two objects have candidates at the same ones of some paths, and they mean the same. -/
def AgreesOn (first second : Members) (paths : List Path) : Prop :=
  ∀ path ∈ paths, (first.present? path).map unwrapped = (second.present? path).map unwrapped

variable {first second : Members}

/-- A field asks an object only for what its candidates mean. -/
theorem bare_resolve {α : Type} (members : Members) (field : ParamField) (convert : Json → Option α)
    (default : α) :
    (members.resolve field convert default).bare =
      let meanings := field.paths.filterMap fun path => (members.present? path).map unwrapped
      match meanings.findSome? convert with
      | some value => ⟨value, []⟩
      | none =>
          match meanings.head? with
          | some first => ⟨default, [.invalidField field.name first]⟩
          | none => ⟨default, []⟩ := by
  rw [← List.map_filterMap]
  simp only [resolve, List.findSome?_map, List.head?_map, Function.comp_def]
  cases (field.paths.filterMap members.present?).findSome? fun candidate =>
      convert candidate.unwrapped with
  | some value => rfl
  | none => cases (field.paths.filterMap members.present?).head? <;> rfl

theorem resolve_of_agreesOn {α : Type} {field : ParamField} (convert : Json → Option α)
    (default : α) (agree : first.AgreesOn second field.paths) :
    (first.resolve field convert default).bare = (second.resolve field convert default).bare := by
  rw [bare_resolve, bare_resolve, List.filterMap_congr agree]

end Json.Members

namespace Resolved

variable {α β : Type}

theorem bare_map (change : α → β) (resolved : Resolved α) :
    (change <$> resolved).bare = change <$> resolved.bare := by
  rw [map_eq, map_eq]
  rfl

theorem bare_bind (first : Resolved α) (next : α → Resolved β) :
    (first >>= next).bare = first.bare >>= fun value => (next value).bare :=
  congrArg (Resolved.mk _) (List.map_append)

end Resolved

namespace Json.Members

variable {first second : Members}

/-- A field of a record asks an object only for what its candidates mean. -/
theorem resolveField_of_agreesOn {field : RecordField}
    (agree : first.AgreesOn second field.param.paths) :
    (first.resolveField field).bare = (second.resolveField field).bare := by
  have same : ∀ {α : Type} (convert : Json → Option α) (default : α),
      (first.resolve field.param convert default).bare =
        (second.resolve field.param convert default).bare := fun convert default =>
    resolve_of_agreesOn convert default agree
  cases field with
  | number field default =>
      simp only [resolveField, Resolved.bare_map]
      exact congrArg (FieldValue.number <$> ·) (same asNumber? default)
  | integer field default =>
      simp only [resolveField, Resolved.bare_map]
      exact congrArg (FieldValue.integer <$> ·) (same _ default)
  | text field default =>
      simp only [resolveField, Resolved.bare_map]
      exact congrArg (FieldValue.text <$> ·) (same asText? default)
  | direction =>
      simp only [resolveField, direction, Resolved.bare_map, Resolved.bare_bind]
      exact congrArg (fun text => FieldValue.direction <$> (text >>= _))
        (same asText? Direction.clockwise.name)

end Json.Members

/-- The parameters of a kind with a record are what their fields say. -/
theorem Params.Fits.eq_of_fieldValues {kind : StepKind} {first second : Params}
    (fits : Fits kind first) (fitsToo : Fits kind second) (recorded : kind.recordFields ≠ [])
    (same : first.fieldValues = second.fieldValues) : first = second := by
  cases fits with
  | motion record =>
      cases fitsToo with
      | motion recordToo =>
          obtain ⟨_, _, _⟩ := record
          obtain ⟨_, _, _⟩ := recordToo
          cases same
          rfl
  | wait record =>
      cases fitsToo with
      | wait recordToo =>
          obtain ⟨_⟩ := record
          obtain ⟨_⟩ := recordToo
          cases same
          rfl
  | linearMove record =>
      cases fitsToo with
      | linearMove recordToo =>
          obtain ⟨⟨_, _, _⟩, _⟩ := record
          obtain ⟨⟨_, _, _⟩, _⟩ := recordToo
          cases same
          rfl
  | relativeMove record =>
      cases fitsToo with
      | relativeMove recordToo =>
          obtain ⟨_, _, _⟩ := record
          obtain ⟨_, _, _⟩ := recordToo
          cases same
          rfl
  | circularMove record =>
      cases fitsToo with
      | circularMove recordToo =>
          obtain ⟨⟨_, _⟩, ⟨_, _⟩, _⟩ := record
          obtain ⟨⟨_, _⟩, ⟨_, _⟩, _⟩ := recordToo
          cases same
          rfl
  | counter record =>
      cases fitsToo with
      | counter recordToo =>
          obtain ⟨_, _, _, _⟩ := record
          obtain ⟨_, _, _, _⟩ := recordToo
          cases same
          rfl
  | goto record =>
      cases fitsToo with
      | goto recordToo =>
          obtain ⟨_, _⟩ := record
          obtain ⟨_, _⟩ := recordToo
          cases same
          rfl
  | start | finish | io | other => exact absurd rfl recorded

namespace StepKind

/-- The paths at which a document may hold something for a field of the record of a kind. What a
kind without a record passes on is a candidate of no field. -/
def candidatePaths (kind : StepKind) : List Path :=
  kind.recordFields.flatMap fun field => field.param.paths

/-- Two documents that agree at all candidates have the same record, and the same is wrong with
them. -/
theorem extract_of_agreesOn {kind : StepKind} {first second : Json.Members}
    (agree : first.AgreesOn second kind.candidatePaths) (recorded : kind.recordFields ≠ []) :
    (kind.extract (some (.object first))).bare = (kind.extract (some (.object second))).bare := by
  have fields : ∀ field ∈ kind.recordFields,
      (first.resolveField field).value = (second.resolveField field).value ∧
        (first.resolveField field).issues.map Issue.bare =
          (second.resolveField field).issues.map Issue.bare := fun field member =>
    Resolved.mk.inj (Json.Members.resolveField_of_agreesOn fun path listed =>
      agree path (List.mem_flatMap_of_mem member listed))
  have firstFields := first.params_eq_fields kind
  have secondFields := second.params_eq_fields kind
  have values : (first.params kind).value.fieldValues = (second.params kind).value.fieldValues := by
    rw [firstFields.1, secondFields.1]
    exact List.map_congr_left fun field member => (fields field member).1
  have issues : (first.params kind).issues.map Issue.bare =
      (second.params kind).issues.map Issue.bare := by
    rw [firstFields.2, secondFields.2, List.map_flatMap, List.map_flatMap]
    exact List.flatMap_congr fun field member => (fields field member).2
  have same := (first.params_fits kind).eq_of_fieldValues (second.params_fits kind) recorded values
  simp only [Resolved.bare, extract, same, issues]

/-- No candidate of a record stands inside another one. -/
theorem candidatePaths_apart (kind : StepKind) :
    ∀ path ∈ kind.candidatePaths, ∀ other ∈ kind.candidatePaths,
      path <+: other → path = other := by
  cases kind with
  | other name => exact fun path listed => absurd listed List.not_mem_nil
  | _ => decide +kernel

end StepKind

/-! ## Wrapping candidates -/

theorem Json.Wraps.ne_null {wrapper content : Json} (wraps : wrapper.Wraps content) :
    wrapper ≠ .null := by
  obtain ⟨members, rfl, -⟩ := wraps
  exact Json.noConfusion

namespace Json.Members

/-- A value wraps the candidate at the end of a path, which is no wrapper itself. -/
def WrappedBy (members : Members) (path : Path) (wrapper : Json) : Prop :=
  ∃ candidate, members.Offers path candidate ∧ (∀ content, ¬ candidate.Wraps content) ∧
    wrapper.Wraps candidate

variable {members changed : Members} {path : Path} {wrapper : Json}

/-- Wrapping one more candidate leaves every candidate with its meaning. -/
theorem AgreesOn.replace {paths : List Path} (agree : members.AgreesOn changed paths)
    (apart : ∀ path ∈ paths, ∀ other ∈ paths, path <+: other → path = other)
    (listed : path ∈ paths) (wrapped : members.WrappedBy path wrapper) :
    members.AgreesOn (changed.replace wrapper path) paths := by
  intro other listedToo
  by_cases same : other = path
  · obtain rfl := same
    obtain ⟨candidate, offered, plain, wraps⟩ := wrapped
    -- What stands there by now means the same, so the path still leads somewhere.
    have meaning := agree other listed
    rw [offers_iff.mp offered] at meaning
    obtain ⟨old, there, -⟩ := Option.map_eq_some_iff.mp meaning.symm
    have led := standsAt_iff.mp (offers_iff.mpr there).1
    have offeredNow : (changed.replace wrapper other).Offers other wrapper :=
      ⟨standsAt_iff.mpr (follow?_replace_self wrapper led), wraps.ne_null⟩
    rw [offers_iff.mp offered, offers_iff.mp offeredNow, Option.map_some, Option.map_some,
      wraps.unwrapped_eq, unwrapped_eq_self plain]
  · have outside : ¬ path <+: other := fun inside =>
      same (apart path listed other listedToo inside).symm
    have within : ¬ other <+: path := fun inside =>
      same (apart other listedToo path listed inside)
    rw [agree other listedToo, present?, present?, follow?_replace_of_apart wrapper outside within]

end Json.Members

namespace StepKind

/-- Every candidate keeps its meaning, however many of them are wrapped. -/
theorem agreesOn_replaceAll {kind : StepKind} {members changed : Json.Members}
    {wrappers : List (Path × Json)} (agree : members.AgreesOn changed kind.candidatePaths)
    (wrapped : ∀ entry ∈ wrappers,
      entry.1 ∈ kind.candidatePaths ∧ members.WrappedBy entry.1 entry.2) :
    members.AgreesOn (changed.replaceAll wrappers) kind.candidatePaths := by
  induction wrappers generalizing changed with
  | nil => exact agree
  | cons entry rest inductionHypothesis =>
      obtain ⟨first, others⟩ := List.forall_mem_cons.mp wrapped
      exact inductionHypothesis (agree.replace kind.candidatePaths_apart first.1 first.2) others

/-- Wrapping candidates of a record, as many as one likes and each with whatever beside it, changes
no parameter. It changes no issue either, but for the wrapper of the value that an issue reports. -/
theorem extract_of_wrapped (kind : StepKind) (members : Json.Members)
    (wrappers : List (Path × Json))
    (wrapped : ∀ entry ∈ wrappers,
      entry.1 ∈ kind.candidatePaths ∧ members.WrappedBy entry.1 entry.2) :
    (kind.extract (some (.object (members.replaceAll wrappers)))).value =
        (kind.extract (some (.object members))).value ∧
      (kind.extract (some (.object (members.replaceAll wrappers)))).issues.map Issue.bare =
        (kind.extract (some (.object members))).issues.map Issue.bare := by
  by_cases bare : kind.recordFields = []
  · have nothing : wrappers = [] := by
      refine List.eq_nil_iff_forall_not_mem.mpr fun entry member => ?_
      have listed := (wrapped entry member).1
      rw [candidatePaths, bare] at listed
      exact List.not_mem_nil listed
    subst nothing
    exact ⟨rfl, rfl⟩
  · have agree : members.AgreesOn (members.replaceAll wrappers) kind.candidatePaths :=
      agreesOn_replaceAll (fun _ _ => rfl) wrapped
    obtain ⟨value, issues⟩ := Resolved.mk.inj (extract_of_agreesOn agree bare)
    exact ⟨value.symm, issues.symm⟩

end StepKind

/-- The members of a document of a straight move. Two fields share the object of its target, and
two of its candidates do not convert. -/
def looseLine : Json.Members :=
  [("speed", .array [.number (.integer 1)]),
    ("target", .object
      [("X", .number (.integer 4)), ("Y", .object [("unit", .string "mm")]),
        ("x", .string "7")])]

/-- Wrappers for candidates of a straight move, with and without a unit. -/
def lineWrappers : List (Path × Json) :=
  [(["target", "X"], .object [("unit", .string "mm"), ("value", .number (.integer 4))]),
    (["target", "Y"], .object [("value", .object [("unit", .string "mm")])]),
    (["speed"], .object [("unit", .string "mm/s"), ("value", .array [.number (.integer 1)])])]

/-- The members of the same document with those wrappers. -/
def wrappedLine : Json.Members :=
  [("speed", .object [("unit", .string "mm/s"), ("value", .array [.number (.integer 1)])]),
    ("target", .object
      [("X", .object [("unit", .string "mm"), ("value", .number (.integer 4))]),
        ("Y", .object [("value", .object [("unit", .string "mm")])]), ("x", .string "7")])]

theorem lineWrappers_wrap : ∀ entry ∈ lineWrappers,
    entry.1 ∈ StepKind.candidatePaths .linearMove ∧ looseLine.WrappedBy entry.1 entry.2 := by
  simp only [lineWrappers, List.forall_mem_cons, List.not_mem_nil, false_imp_iff, implies_true,
    and_true]
  refine ⟨?_, ?_, ?_⟩
  · have stands : looseLine.StandsAt ["target", "X"] (.number (.integer 4)) :=
      .inside rfl (.member rfl)
    refine ⟨by decide +kernel, _, ⟨stands, Json.noConfusion⟩, ?_, _, rfl, rfl⟩
    rintro content ⟨members, same, -⟩
    cases same
  · have stands : looseLine.StandsAt ["target", "Y"] (.object [("unit", .string "mm")]) :=
      .inside rfl (.member rfl)
    refine ⟨by decide +kernel, _, ⟨stands, Json.noConfusion⟩, ?_, _, rfl, rfl⟩
    rintro content ⟨members, same, held⟩
    cases same
    cases held
  · have stands : looseLine.StandsAt ["speed"] (.array [.number (.integer 1)]) := .member rfl
    refine ⟨by decide +kernel, _, ⟨stands, Json.noConfusion⟩, ?_, _, rfl, rfl⟩
    rintro content ⟨members, same, -⟩
    cases same

theorem StepKind.extract_of_wrappedLine :
    looseLine.replaceAll lineWrappers = wrappedLine ∧
      (StepKind.extract .linearMove (some (.object wrappedLine))).value =
        (StepKind.extract .linearMove (some (.object looseLine))).value ∧
      (StepKind.extract .linearMove (some (.object wrappedLine))).issues.map Issue.bare =
        (StepKind.extract .linearMove (some (.object looseLine))).issues.map Issue.bare ∧
      (StepKind.extract .linearMove (some (.object wrappedLine))).issues.map Issue.field? =
        [some "target.Y", some "speed"] := by
  have replaced : looseLine.replaceAll lineWrappers = wrappedLine := rfl
  obtain ⟨value, issues⟩ :=
    StepKind.extract_of_wrapped .linearMove looseLine lineWrappers lineWrappers_wrap
  rw [replaced] at value issues
  exact ⟨replaced, value, issues, by decide +kernel⟩

end MotionSteps
