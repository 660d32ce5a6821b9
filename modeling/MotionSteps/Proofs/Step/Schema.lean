import MotionSteps.Proofs.Step.Defaults
import MotionSteps.Proofs.Step.RoundTrip

/-!
# The form in which parameters are written

Nothing in the text of parameters names their kind, so a reader has to tell it from the type of
the step. `StepKind.fields?` lists the members of each record with the form of their values.
What is extracted from a document conforms to it, whatever the document says: a number field
takes finite numbers only, an integral field keeps to 64 bits, and a direction is one of two.
The text follows, down to its characters: `Schema.Writes` is the grammar of the form, in which a
number is a numeral and never null.
-/

namespace MotionSteps

open Json

/-- The form of a value. -/
inductive Schema where
  | text
  | number
  | integer
  | direction
  /-- An object with these members, in this order. -/
  | record (fields : List (String × Schema))

/-- The members of the record of a kind, in order, for the kinds that have one. -/
def StepKind.fields? : StepKind → Option (List (String × Schema))
  | .motion => some [("axis", .text), ("pos", .number), ("speed", .number)]
  | .wait => some [("delay_ms", .integer)]
  | .linearMove => some
      [("target", .record [("X", .number), ("Y", .number), ("Z", .number)]), ("speed", .number)]
  | .relativeMove => some [("axis", .text), ("distance", .number), ("speed", .number)]
  | .circularMove => some
      [("center", .record [("X", .number), ("Y", .number)]),
        ("end", .record [("X", .number), ("Y", .number)]), ("direction", .direction)]
  | .counter => some
      [("name", .text), ("initial", .integer), ("target", .integer), ("increment", .integer)]
  | .goto => some [("to", .text), ("description", .text)]
  | .start | .finish | .io | .other _ => none

/-! ## Values -/

mutual

/-- A value has a form. -/
inductive Json.Conforms : Schema → Json → Prop where
  | text (value : String) : Conforms .text (.string value)
  | number {value : Json.Number} (finite : value.IsFinite) : Conforms .number (.number value)
  | integer {value : Int} (least : Number.integerMin ≤ value)
      (greatest : value ≤ Number.integerMax) : Conforms .integer (.number (.integer value))
  | direction (direction : Direction) : Conforms .direction (.string direction.name)
  | record {fields : List (String × Schema)} {members : Members}
      (conform : MembersConform fields members) : Conforms (.record fields) (.object members)

/-- Members have the names and forms that are listed, in order. -/
inductive Json.MembersConform : List (String × Schema) → Members → Prop where
  | nil : MembersConform [] []
  | cons {key : String} {schema : Schema} {value : Json} {fields : List (String × Schema)}
      {members : Members} (conforms : Json.Conforms schema value)
      (others : MembersConform fields members) :
      MembersConform ((key, schema) :: fields) ((key, value) :: members)

end

/-! ## Texts -/

mutual

/-- Characters at a depth of nesting are those of a value of a form. -/
def Schema.Writes (layout : Layout) (depth : Nat) : Schema → List Char → Prop
  | .text, written => ∃ value : String, written = stringChars value
  | .number, written => Number.Begins written ∧
      ∃ number : Json.Number, number.IsFinite ∧ written = number.text.toList
  | .integer, written => Number.Begins written ∧
      ∃ value : Int, Number.integerMin ≤ value ∧ value ≤ Number.integerMax ∧
        written = (Number.integerText value).toList
  | .direction, written => written = stringChars "CW" ∨ written = stringChars "CCW"
  | .record [], written => written = ['\x7b', '\x7d']
  | .record ((key, schema) :: fields), written => ∃ first others,
      schema.Writes layout (depth + 1) first ∧ Schema.FieldsWrite layout depth fields others ∧
      written = '\x7b' :: (layout.gap (depth + 1) ++ stringChars key ++ layout.colon ++ first ++
        others)

/-- Characters are those of the members behind the first, with the brace that closes the
record. -/
def Schema.FieldsWrite (layout : Layout) (depth : Nat) :
    List (String × Schema) → List Char → Prop
  | [], written => written = layout.gap depth ++ ['\x7d']
  | (key, schema) :: fields, written => ∃ first others,
      schema.Writes layout (depth + 1) first ∧ Schema.FieldsWrite layout depth fields others ∧
      written =
        ',' :: (layout.gap (depth + 1) ++ stringChars key ++ layout.colon ++ first ++ others)

end

mutual

/-- The text of a value is that of its form. -/
theorem Json.Conforms.writes {schema : Schema} {value : Json} (layout : Layout) (depth : Nat) :
    value.Conforms schema → schema.Writes layout depth (chars layout depth value)
  | .text value => ⟨value, rfl⟩
  | .number finite => ⟨Number.begins_text finite, _, finite, rfl⟩
  | .integer least greatest => ⟨Number.begins_text trivial, _, least, greatest, rfl⟩
  | .direction .clockwise => .inl rfl
  | .direction .counterclockwise => .inr rfl
  | .record .nil => rfl
  | .record (.cons conforms others) =>
      ⟨_, _, conforms.writes layout (depth + 1), others.writes layout depth, rfl⟩

theorem Json.MembersConform.writes {fields : List (String × Schema)} {members : Members}
    (layout : Layout) (depth : Nat) :
    MembersConform fields members →
      Schema.FieldsWrite layout depth fields (membersChars layout depth members)
  | .nil => rfl
  | .cons conforms others =>
      ⟨_, _, conforms.writes layout (depth + 1), others.writes layout depth, rfl⟩

end

/-! ## Extraction -/

/-- Parameters are as those of a kind should be: they have its form, their numbers are finite and
their integers have 64 bits. -/
structure Params.Canonical (kind : StepKind) (params : Params) : Prop where
  fits : Params.Fits kind params
  floats : ∀ value ∈ params.floats, value.isFinite = true
  integers : ∀ value ∈ params.integers, Number.integerMin ≤ value ∧ value ≤ Number.integerMax

theorem Number.isFinite_of_ofText? {text : List Char} {value : Float}
    (spelled : Number.ofText? text = some value) : value.isFinite = true := by
  unfold Number.ofText? at spelled
  grind

theorem Number.toInteger_mem_range (value : Float) :
    Number.integerMin ≤ Number.toInteger value ∧ Number.toInteger value ≤ Number.integerMax := by
  rw [toInteger, clampInteger, integerMin, integerMax]
  omega

namespace Json

/-- A number field finds finite numbers only. -/
theorem isFinite_of_asNumber? {found : Json} {value : Float}
    (converts : found.asNumber? = some value) : value.isFinite = true := by
  cases found with
  | number number =>
      rw [asNumber?, Option.ite_none_right_eq_some] at converts
      exact Option.some.inj converts.2 ▸ converts.1
  | string text => exact Number.isFinite_of_ofText? converts
  | null | bool _ | array _ | object _ => cases converts

namespace Members

/-- What is true of the default and of all that converts is true of the value of a field. -/
theorem resolve_invariant {α : Type} (holds : α → Prop) {convert : Json → Option α} {default : α}
    (ofDefault : holds default)
    (ofConverted : ∀ found value, convert found = some value → holds value)
    (members : Members) (field : ParamField) :
    holds (members.resolve field convert default).value := by
  have resolves : members.Resolves field convert default _ := resolves_iff.mpr rfl
  generalize members.resolve field convert default = resolved at resolves ⊢
  cases resolves with
  | converted _ _ _ _ converts => exact ofConverted _ _ converts
  | rejected | absent => exact ofDefault

theorem isFinite_number {default : Float} (finite : default.isFinite = true) (members : Members)
    (field : ParamField) : (members.number field default).value.isFinite = true :=
  resolve_invariant (fun value : Float => value.isFinite = true) finite
    (fun _ _ => isFinite_of_asNumber?) members field

theorem integer_mem_range {default : Int}
    (fits : Number.integerMin ≤ default ∧ default ≤ Number.integerMax) (members : Members)
    (field : ParamField) :
    Number.integerMin ≤ (members.integer field default).value ∧
      (members.integer field default).value ≤ Number.integerMax := by
  refine resolve_invariant (fun value => Number.integerMin ≤ value ∧ value ≤ Number.integerMax)
    fits (fun found value converts => ?_) members field
  obtain ⟨number, -, rfl⟩ := Option.map_eq_some_iff.mp converts
  exact Number.toInteger_mem_range number

/-- The members of a document resolve to canonical parameters: the defaults are finite. -/
theorem params_canonical (members : Members) (kind : StepKind) :
    Params.Canonical kind (members.params kind).value where
  fits := members.params_fits kind
  floats := by
    have finite : (0 : Float).isFinite = true := by decide +kernel
    cases kind <;> simp [params, Params.floats, isFinite_number finite]
  integers := by
    have zero : Number.integerMin ≤ 0 ∧ (0 : Int) ≤ Number.integerMax := by decide
    have one : Number.integerMin ≤ 1 ∧ (1 : Int) ≤ Number.integerMax := by decide
    cases kind <;> simp [params, Params.integers, integer_mem_range zero, integer_mem_range one]

end Members

end Json

namespace StepKind

variable (kind : StepKind)

theorem extract_canonical (document : Option Json) :
    Params.Canonical kind (kind.extract document).value := by
  fun_cases extract kind document with
  | case1 => exact Members.params_canonical [] kind
  | case2 members => exact Members.params_canonical members kind
  | case3 found notObject => exact Members.params_canonical [] kind

/-- Whatever the text of a document is, it gives canonical parameters. -/
theorem extractText_canonical (document : Option String) :
    Params.Canonical kind (kind.extractText document).value := by
  rw [extractText_eq]
  cases documentReading document with
  | error issue => exact Members.params_canonical [] kind
  | ok members => exact members.params_canonical kind

end StepKind

/-! ## Records -/

theorem recordNumber_conforms {value : Float} (finite : value.isFinite = true) :
    (recordNumber value).Conforms .number := by
  rw [recordNumber]
  split
  · exact .number trivial
  · exact .number finite

theorem recordInteger_conforms {value : Int}
    (fits : Number.integerMin ≤ value ∧ value ≤ Number.integerMax) :
    (recordInteger value).Conforms .integer :=
  .integer fits.1 fits.2

namespace Params.Canonical

variable {kind : StepKind} {params : Params}

/-- Canonical parameters of a kind with a record are an object of the form of that record. -/
theorem conforms (canonical : params.Canonical kind) {fields : List (String × Schema)}
    (typed : kind.fields? = some fields) : params.toJson.Conforms (.record fields) := by
  obtain ⟨fits, floats, integers⟩ := canonical
  cases fits with
  | motion record =>
      cases typed
      simp only [Params.floats, List.forall_mem_cons] at floats
      obtain ⟨position, speed, -⟩ := floats
      exact .record (.cons (.text _) (.cons (recordNumber_conforms position)
        (.cons (recordNumber_conforms speed) .nil)))
  | wait record =>
      cases typed
      simp only [Params.integers, List.forall_mem_cons] at integers
      exact .record (.cons (recordInteger_conforms integers.1) .nil)
  | linearMove record =>
      cases typed
      simp only [Params.floats, List.forall_mem_cons] at floats
      obtain ⟨x, y, z, speed, -⟩ := floats
      exact .record (.cons (.record (.cons (recordNumber_conforms x)
        (.cons (recordNumber_conforms y) (.cons (recordNumber_conforms z) .nil))))
        (.cons (recordNumber_conforms speed) .nil))
  | relativeMove record =>
      cases typed
      simp only [Params.floats, List.forall_mem_cons] at floats
      obtain ⟨distance, speed, -⟩ := floats
      exact .record (.cons (.text _) (.cons (recordNumber_conforms distance)
        (.cons (recordNumber_conforms speed) .nil)))
  | circularMove record =>
      cases typed
      simp only [Params.floats, List.forall_mem_cons] at floats
      obtain ⟨centerX, centerY, endX, endY, -⟩ := floats
      exact .record (.cons (.record (.cons (recordNumber_conforms centerX)
        (.cons (recordNumber_conforms centerY) .nil))) (.cons (.record
        (.cons (recordNumber_conforms endX) (.cons (recordNumber_conforms endY) .nil)))
        (.cons (.direction _) .nil)))
  | counter record =>
      cases typed
      simp only [Params.integers, List.forall_mem_cons] at integers
      obtain ⟨first, target, increment, -⟩ := integers
      exact .record (.cons (.text _) (.cons (recordInteger_conforms first)
        (.cons (recordInteger_conforms target) (.cons (recordInteger_conforms increment) .nil))))
  | goto record =>
      cases typed
      exact .record (.cons (.text _) (.cons (.text _) .nil))
  | start | finish | io | other => cases typed

/-- Parameters are an object that is passed on exactly if their kind has no record. -/
theorem passthrough_iff (canonical : params.Canonical kind) :
    (∃ members, params = .passthrough members) ↔ kind.fields? = none := by
  cases canonical.fits <;> simp [StepKind.fields?]

end Params.Canonical

end MotionSteps
