import Mathlib
import MotionSteps.Proofs.Json.Numbers
import MotionSteps.Proofs.Number.Whole
import MotionSteps.Proofs.Program.Linked
import MotionSteps.Proofs.Step.Defaults
import MotionSteps.Proofs.Step.RoundTrip

/-!
# Integers in documents

An integral field converts what it finds to a binary64 number before it drops the fraction. A
document that gives it an integer therefore has that integer `held`: exact up to `2 ^ 53`, beyond
that only for the multiples of its spacing and for the greatest integer of all. No issue is raised
either way. `integer_of_gives` follows an integer from the document through the record of its kind to
the parameters of the compiled step. `Number.integerReturns_iff` says the same of the way back: an
integer that a program prints is read back as it was exactly if it is held exactly.
-/

namespace MotionSteps

open Json

/-- The first candidate for a field, bare or in a wrapper, is an integer. -/
inductive Json.Members.Gives (members : Members) (field : ParamField) (value : Int) : Prop where
  | first {before after : List Path} {path : Path} {candidate : Json}
      (preference : field.paths = before ++ path :: after)
      (earlier : ∀ other ∈ before, ∀ candidate, ¬ members.Offers other candidate)
      (offered : members.Offers path candidate)
      (means : candidate.Means (.number (.integer value))) : Gives members field value

/-- Parameters of a kind have an integer as the value of a field, and they print it under the first
key of that field. -/
structure Params.Holds (kind : StepKind) (params : Params) (field : ParamField) (value : Int) :
    Prop where
  stored : ∃ default, (RecordField.integer field default, FieldValue.integer value) ∈
    kind.recordFields.zip params.fieldValues
  printed : ∀ path others, field.paths = path :: others →
    params.members.StandsAt path (.number (.integer value))

/-! ## Fields -/

namespace Json

variable {members : Members} {field : ParamField} {value : Int}

/-- An integer of 64 bits is a number that a field takes. -/
theorem asNumber?_integer (small : value.natAbs < 2 ^ 64) :
    (Json.number (.integer value)).asNumber? = some (Float.ofInt value) :=
  if_pos (Number.isFinite_ofInt small)

/-- A field that is given an integer holds it, and nothing is wrong with it. -/
theorem Members.Gives.integer_eq (gives : members.Gives field value)
    (small : value.natAbs < 2 ^ 64) (default : Int) :
    members.integer field default = ⟨MotionSteps.Number.held value, []⟩ := by
  cases gives with
  | @first before after path candidate preference earlier offered means =>
      have finds : field.Finds members candidate := List.findSome?_eq_some_iff.mpr
        ⟨before, path, after, preference, Members.offers_iff.mp offered,
          fun other listed => Members.present?_eq_none_iff.mpr (earlier other listed)⟩
      have converts : candidate.unwrapped.asNumber?.map MotionSteps.Number.toInteger =
          some (MotionSteps.Number.held value) := by
        rw [means_iff.mp means, asNumber?_integer small, Option.map_some,
          MotionSteps.Number.toInteger_ofInt small]
      exact Members.resolve_of_finds finds converts default

end Json

/-- An integer of 64 bits comes back from its text exactly if it is held exactly. -/
theorem Number.integerReturns_iff {value : Int} (least : integerMin ≤ value)
    (greatest : value ≤ integerMax) : IntegerReturns value ↔ held value = value := by
  have small := natAbs_lt least greatest
  have below : value < Numeral.significandLimit := Int.lt_of_le_of_lt greatest (by decide)
  have reread : (Json.Number.integer value).reread? = some (.integer value) :=
    Json.Number.readsBack_integer least below
  rw [IntegerReturns, recordInteger, returned?, reread, Option.bind_some, asNumber?_integer small,
    Option.map_some, toInteger_ofInt small, Option.some_inj]

/-! ## Records -/

/-- A record prints each of its integers under the first key of its field. -/
theorem Params.Fits.standsAt_integer {kind : StepKind} {params : Params} (fits : Fits kind params)
    {field : ParamField} {default value : Int}
    (stored : (RecordField.integer field default, FieldValue.integer value) ∈
      kind.recordFields.zip params.fieldValues) {path : Path} {others : List Path}
    (first : field.paths = path :: others) :
    params.members.StandsAt path (.number (.integer value)) := by
  rw [Json.Members.standsAt_iff]
  cases fits with
  | wait record =>
      simp only [StepKind.recordFields, fieldValues, List.zip_cons_cons, List.zip_nil_right,
        List.mem_cons, Prod.mk.injEq, RecordField.integer.injEq, FieldValue.integer.injEq,
        List.not_mem_nil, or_false] at stored
      obtain ⟨⟨rfl, -⟩, rfl⟩ := stored
      obtain ⟨rfl, -⟩ := List.cons.inj first
      rfl
  | counter record =>
      simp only [StepKind.recordFields, fieldValues, List.zip_cons_cons, List.zip_nil_right,
        List.mem_cons, Prod.mk.injEq, reduceCtorEq, and_self, RecordField.integer.injEq,
        FieldValue.integer.injEq, List.not_mem_nil, or_false, false_or] at stored
      obtain ⟨⟨rfl, -⟩, rfl⟩ | ⟨⟨rfl, -⟩, rfl⟩ | ⟨⟨rfl, -⟩, rfl⟩ := stored
      all_goals
        obtain ⟨rfl, -⟩ := List.cons.inj first
        rfl
  | _ => simp [StepKind.recordFields, fieldValues] at stored

namespace StepKind

variable {kind : StepKind} {field : ParamField} {default value : Int} {document : Option String}
  {members : Members}

/-- The record of a kind holds the integer that its document gives to a field. -/
theorem holds_of_gives (listed : .integer field default ∈ kind.recordFields)
    (reads : ReadsAs document (.ok members)) (gives : members.Gives field value)
    (small : value.natAbs < 2 ^ 64) :
    (kind.extractText document).value.Holds kind field (Number.held value) := by
  have extracted : kind.extractText document = members.params kind := by
    rw [extractText_eq, ← readsAs_iff.mp reads]
  have stored : (RecordField.integer field default, FieldValue.integer (Number.held value)) ∈
      kind.recordFields.zip (members.params kind).value.fieldValues := by
    rw [(members.params_eq_fields kind).1, ← List.map_prod_left_eq_zip]
    refine List.mem_map.mpr ⟨_, listed, ?_⟩
    rw [Members.resolveField, gives.integer_eq small, Resolved.map_eq]
  rw [extracted]
  exact ⟨⟨default, stored⟩, fun _ _ => (members.params_fits kind).standsAt_integer stored⟩

/-- No issue is about that field. -/
theorem no_issue_of_gives (listed : .integer field default ∈ kind.recordFields)
    (reads : ReadsAs document (.ok members)) (gives : members.Gives field value)
    (small : value.natAbs < 2 ^ 64) :
    ∀ issue ∈ (kind.extractText document).issues, issue.field? ≠ some field.name := by
  intro issue raised named
  rw [extractText_eq, ← readsAs_iff.mp reads] at raised
  simp only [(members.params_eq_fields kind).2, List.mem_flatMap] at raised
  obtain ⟨other, listedToo, raised⟩ := raised
  have about : issue.field? = some other.param.name := by
    have fits := (Members.resolvesField_iff.mpr rfl : members.ResolvesField other _).issues_fit
    exact List.mem_singleton.mp (fits.subset (List.mem_map_of_mem raised))
  have same : other.param.name = field.name := Option.some.inj (about.symm.trans named)
  obtain rfl := List.inj_on_of_nodup_map kind.recordFields_nodup listedToo listed same
  rw [Members.resolveField, gives.integer_eq small, Resolved.map_eq] at raised
  exact List.not_mem_nil raised

/-- What becomes of an integer that a document gives to an integral field. -/
theorem integer_of_gives (listed : .integer field default ∈ kind.recordFields)
    (reads : ReadsAs document (.ok members)) (gives : members.Gives field value)
    (least : Number.integerMin ≤ value) (greatest : value ≤ Number.integerMax) :
    (kind.extractText document).value.Holds kind field (Number.held value) ∧
      (∀ issue ∈ (kind.extractText document).issues, issue.field? ≠ some field.name) ∧
      (∀ (graph : Graph) (settings : Settings) (id : NodeId) (node : Node), graph.Reachable →
        graph.node? id = some node → node.kind = kind → node.document = document →
        ∃ (sequence : Sequence) (position : Nat) (step : Step),
          graph.compile settings = .ok sequence ∧
          graph.linearize.order[position]? = some id ∧ sequence.steps[position]? = some step ∧
          step.kind = kind ∧ step.params.Holds kind field (Number.held value)) ∧
      (Number.held value = value ↔
        (Number.spacing value.natAbs : Int) ∣ value ∨ value = Number.integerMax) ∧
      (value.natAbs ≤ 2 ^ 53 → Number.held value = value) ∧
      2 * (Number.held value - value).natAbs ≤ Number.spacing value.natAbs := by
  have small := Number.natAbs_lt least greatest
  have holds := holds_of_gives listed reads gives small
  refine ⟨holds, no_issue_of_gives listed reads gives small, ?_,
    Number.held_eq_iff least greatest, Number.held_eq_self, Number.held_near least greatest⟩
  rintro graph settings id node reachable held rfl rfl
  have wellFormed := reachable.wellFormed
  obtain ⟨position, there⟩ := List.mem_iff_getElem?.mp (wellFormed.mem_order_iff.mpr ⟨node, held⟩)
  obtain ⟨other, step, heldToo, stepThere, -, sameKind, sameParams⟩ :=
    wellFormed.exists_step_at there
  obtain rfl := Option.some.inj (held.symm.trans heldToo)
  have nonempty : graph.nodes ≠ [] := by
    intro nothing
    have inGraph := wellFormed.mem_nodeIds_iff.mpr ⟨node, held⟩
    simp [Graph.nodeIds, nothing] at inGraph
  exact ⟨_, position, step, Graph.compile_of_nodes_ne_nil settings nonempty, there, stepThere,
    sameKind, sameParams ▸ holds⟩

/-- A pause whose length lies between two binary64 numbers, under the older key and with a unit. -/
def longOldPause : String :=
  "\x7b\"delay\":\x7b\"unit\":\"ms\",\"value\":9007199254740993\x7d\x7d"

theorem readsAs_longOldPause :
    ReadsAs (some longOldPause) (.ok [("delay", .object
      [("unit", .string "ms"), ("value", .number (.integer 9007199254740993))])]) := by
  have given : Text.trim longOldPause ≠ "" := by decide +kernel
  exact .members (fun blank => given ((Text.trim_eq_empty_iff _).mpr blank))
    (by with_unfolding_all rfl)

/-- A history of that pause alone. -/
def pauseHistory : List Edit :=
  [.addNode { typeLabel := "wait", document := some longOldPause }]

theorem integer_of_longOldPause :
    ∃ members, ReadsAs (some longOldPause) (.ok members) ∧
      members.Gives .delay 9007199254740993 ∧
      (extractText .wait (some longOldPause)).value.Holds .wait .delay 9007199254740992 ∧
      (extractText .wait (some longOldPause)).issues = [] ∧
      ∃ (sequence : Sequence) (step : Step),
        (Graph.empty.run pauseHistory).compile {} = .ok sequence ∧ step ∈ sequence.steps ∧
        step.params.Holds .wait .delay 9007199254740992 := by
  have gives : Members.Gives [("delay", .object
      [("unit", .string "ms"), ("value", .number (.integer 9007199254740993))])] .delay
        9007199254740993 := by
    refine @Members.Gives.first _ _ _ [["delay_ms"]] [] ["delay"] _ rfl ?_
      ⟨.member rfl, Json.noConfusion⟩ (.wrapped ⟨_, rfl, rfl⟩)
    intro other listed candidate offered
    obtain rfl := List.mem_singleton.mp listed
    cases Members.offers_iff.mp offered
  have rounded : Number.held 9007199254740993 = 9007199254740992 := by decide +kernel
  have listed : RecordField.integer .delay 0 ∈ recordFields .wait := List.mem_singleton_self _
  obtain ⟨holds, -, compiles, -⟩ :=
    integer_of_gives listed readsAs_longOldPause gives (by decide) (by decide)
  have added : ((Graph.empty.run pauseHistory).node? ⟨0⟩).map
      (fun node => (node.kind, node.document)) = some (.wait, some longOldPause) := by
    decide +kernel
  obtain ⟨node, held, same⟩ := Option.map_eq_some_iff.mp added
  obtain ⟨sameKind, sameDocument⟩ := Prod.mk.inj same
  have reachable : (Graph.empty.run pauseHistory).Reachable := ⟨pauseHistory, rfl⟩
  obtain ⟨sequence, position, step, compiled, -, there, -, holdsToo⟩ :=
    compiles (Graph.empty.run pauseHistory) {} ⟨0⟩ node reachable held sameKind sameDocument
  rw [rounded] at holds holdsToo
  exact ⟨_, readsAs_longOldPause, gives, holds, by decide +kernel, sequence, step, compiled,
    List.mem_of_getElem? there, holdsToo⟩

/-- The same pause under the newer key. -/
def longPause : String :=
  "\x7b\"delay_ms\":9007199254740993\x7d"

theorem readsAs_longPause :
    ReadsAs (some longPause) (.ok [("delay_ms", .number (.integer 9007199254740993))]) := by
  have given : Text.trim longPause ≠ "" := by decide +kernel
  exact .members (fun blank => given ((Text.trim_eq_empty_iff _).mpr blank))
    (by with_unfolding_all rfl)

/-- An integral field may change an integer, and no issue says so. -/
theorem rounded_longPause :
    ∃ members, ReadsAs (some longPause) (.ok members) ∧
      members.Gives .delay 9007199254740993 ∧
      (extractText .wait (some longPause)).issues = [] ∧
      (extractText .wait (some longPause)).value.toJson.compact =
        "\x7b\"delay_ms\":9007199254740992\x7d" ∧
      ¬ (extractText .wait (some longPause)).value.Holds .wait .delay 9007199254740993 := by
  refine ⟨_, readsAs_longPause, ?_, by decide +kernel, by decide +kernel, ?_⟩
  · refine @Members.Gives.first _ _ _ [] [["delay"]] ["delay_ms"] _ rfl ?_
      ⟨.member rfl, Json.noConfusion⟩ (.bare ?_)
    · exact fun other listed => absurd listed List.not_mem_nil
    · rintro content ⟨members, same, -⟩
      cases same
  · rintro ⟨⟨default, stored⟩, -⟩
    have values : (extractText .wait (some longPause)).value.fieldValues =
        [.integer 9007199254740992] := by decide +kernel
    rw [values] at stored
    simp [recordFields] at stored

end StepKind

end MotionSteps
