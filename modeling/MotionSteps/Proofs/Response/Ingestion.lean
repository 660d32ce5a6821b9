import MotionSteps.Proofs.Response.RoundTrip

/-!
# Ingested programs are ingested as they are

Whatever form a response has, what becomes of it is settled. Identifiers, followers and the
name are filled in where they are missing or blank. The kind is the one that its own name
means, and the parameters have its form. An object that is passed on was read as part of a
response, so it opens no more containers than can be read there again.
`ingest_pretty_of_ingest` concludes that a second ingestion changes nothing.
-/

namespace MotionSteps.Response

open Json

/-- The parameters that a step gives were read below the containers of a program. -/
def GeneratedStep.Readable (step : GeneratedStep) : Prop :=
  ∀ params ∈ step.params, Json.Readable paramsDepth params

namespace GeneratedStep

theorem yields_form : form.reader.Yields Readable := by
  refine RecordForm.yields_reader ?_ (by simp [Readable, form])
  simp only [form, List.forall_mem_cons]
  refine ⟨?_, ?_, ?_, ?_, List.forall_mem_nil _⟩
  · exact Field.keeps_of (Reader.Yields.any _) fun _ _ before _ => before
  · exact Field.keeps_of (Reader.Yields.any _) fun _ _ before _ => before
  · exact Field.keeps_of (Json.Readable.yields_valueOrNull paramsDepth) fun _ _ _ given => given
  · exact Field.keeps_of (Reader.Yields.any _) fun _ _ before _ => before

/-- The parameters that a step gets have the form of its kind. -/
theorem resolvedParams_fits (step : GeneratedStep) (kind : StepKind) :
    Params.Fits kind (step.resolvedParams kind) := by
  cases kind with
  | start => exact .start _
  | finish => exact .finish _
  | io => exact .io _
  | other name => exact .other name _
  | _ => exact StepKind.extract_fits _ step.params

theorem Readable.object_members {step : GeneratedStep} (readable : step.Readable) :
    Json.Readable paramsDepth (.object ((step.params.bind members?).getD [])) := by
  have nothing : Json.Readable paramsDepth (.object []) := .empty _
  cases given : step.params with
  | none => exact nothing
  | some value =>
      cases value with
      | object members => exact readable _ given
      | _ => exact nothing

theorem Readable.resolvedParams {step : GeneratedStep} (readable : step.Readable)
    (kind : StepKind) : (step.resolvedParams kind).Readable paramsDepth := by
  intro members passed
  -- Only the kinds without a record of their own pass an object on.
  have fits := step.resolvedParams_fits kind
  rw [passed] at fits
  cases fits with
  | _ =>
      cases passed
      exact readable.object_members

theorem isEmpty_trim_resolvedId (step : GeneratedStep) (position : Nat) :
    (Text.trim (step.resolvedId position)).isEmpty = false := by
  by_cases given : step.givesId = true
  · rw [resolvedId_of_givesId given]
    simpa [givesId] using given
  · rw [resolvedId_of_not_givesId given]
    exact isEmpty_trim_stepId position

/-- A step of a kind that is its own name is settled once it has an identifier. -/
theorem Readable.settled {step : GeneratedStep} (readable : step.Readable) {kind : StepKind}
    (named : StepKind.ofLabel kind.name = kind) (position : Nat) (next : Option String) :
    Step.Settled
      { id := step.resolvedId position
        kind
        params := step.resolvedParams kind
        next } where
  named := step.isEmpty_trim_resolvedId position
  kind := named
  fits := step.resolvedParams_fits kind
  readable := readable.resolvedParams kind

end GeneratedStep

namespace GeneratedSequence

theorem yields_form :
    form.reader.Yields fun sequence => ∀ step ∈ sequence.steps, step.Readable := by
  refine RecordForm.yields_reader ?_ (List.forall_mem_nil _)
  simp only [form, List.forall_mem_cons]
  refine ⟨?_, ?_, List.forall_mem_nil _⟩
  · exact Field.keeps_of (Reader.Yields.any _) fun _ _ before _ => before
  · exact Field.keeps_of GeneratedStep.yields_form.array fun _ _ _ each => each

/-- A name that is blank all the same is that of the settings. -/
theorem name_toSequence_of_blank (sequence : GeneratedSequence) {settings : Settings}
    (blank : (Text.trim (sequence.toSequence settings).name).isEmpty = true) :
    (sequence.toSequence settings).name = settings.sequenceName := by
  cases given : sequence.name with
  | none => simp only [toSequence, given]
  | some name =>
      simp only [toSequence, given] at blank ⊢
      split at blank
      · next missing => rw [if_pos missing]
      · next kept => exact absurd blank kept

/-- Every step but the last one has a follower. -/
theorem next_toSequence_ne_none (sequence : GeneratedSequence) {settings : Settings}
    {position : Nat} {step : Step}
    (there : (sequence.toSequence settings).steps[position]? = some step)
    (more : position + 1 < (sequence.toSequence settings).steps.length) : step.next ≠ none := by
  have another : position + 1 < sequence.ids.length := by
    rwa [← map_id_toSequence, List.length_map]
  rw [toSequence_getElem?, Option.map_eq_some_iff] at there
  obtain ⟨given, -, rfl⟩ := there
  intro missing
  rw [Option.or_eq_none_iff, List.getElem?_eq_none_iff] at missing
  exact absurd another (Nat.not_lt.mpr missing.2)

/-- What becomes of a generated program is settled. -/
theorem settled_toSequence {sequence : GeneratedSequence}
    (readable : ∀ step ∈ sequence.steps, step.Readable) (settings : Settings) :
    (sequence.toSequence settings).Settled settings := by
  refine ⟨sequence.name_toSequence_of_blank, ?_, fun _ _ => sequence.next_toSequence_ne_none⟩
  intro step listed
  obtain ⟨position, there⟩ := List.mem_iff_getElem?.mp listed
  rw [toSequence_getElem?, Option.map_eq_some_iff] at there
  obtain ⟨given, givenThere, rfl⟩ := there
  exact (readable given (List.mem_of_getElem? givenThere)).settled
    (StepKind.ofLabel_name_ofLabel given.typeLabel) position _

end GeneratedSequence

/-- Whatever was ingested is settled. -/
theorem settled_of_ingest {text : String} {settings : Settings} {sequence : Sequence}
    (ingested : ingest text settings = .ok sequence) : sequence.Settled settings := by
  obtain ⟨generated, found, rfl⟩ := exists_read_of_ingest ingested
  obtain ⟨span, -, parsed⟩ := exists_span_of_read found
  exact GeneratedSequence.settled_toSequence
    (GeneratedSequence.yields_form.of_parse parsed) settings

/-- Ingestion is idempotent. Whatever was ingested, the text of the program is ingested
again: what the program says is the same, and so is the text that is printed again, as long as
the numbers in it are read back as the ones that were printed. -/
theorem ingest_pretty_of_ingest {text : String} {settings : Settings} {sequence : Sequence}
    (ingested : ingest text settings = .ok sequence) (numbers : sequence.NumbersReturn) :
    ∃ again, ingest sequence.pretty settings = .ok again ∧ again.name = sequence.name ∧
      again.steps.map Step.content = sequence.steps.map Step.content ∧
      again.pretty = sequence.pretty :=
  ingest_pretty (settled_of_ingest ingested) numbers

/-- A response in a loose form: a missing and a blank identifier, an older key, a number that
stands in a text, a step in array form and a kind that is not known. -/
def looseResponse : String :=
  "Sure! \x7b\"steps\":[\x7b\"type\":\"motion\",\"params\":\x7b\"pos\":\"12.5\"\x7d\x7d," ++
    "[\" \",\"Weld\",\x7b\"b\":1,\"a\":[]\x7d,\"x\"]]\x7d"

theorem ingest_pretty_after_looseResponse :
    ∃ sequence again, ingest looseResponse {} = .ok sequence ∧
      sequence.steps.map Step.id = ["node_01", "node_02"] ∧ sequence.NumbersReturn ∧
      ingest sequence.pretty {} = .ok again ∧ again.pretty = sequence.pretty := by
  have result : ((ingest looseResponse {}).toOption.map fun sequence =>
      (sequence.steps.map Step.id, decide sequence.NumbersReturn)) =
        some (["node_01", "node_02"], true) := by decide +kernel
  cases ingested : ingest looseResponse {} with
  | error failure => rw [ingested] at result; cases result
  | ok sequence =>
      rw [ingested] at result
      obtain ⟨ids, numbers⟩ := Prod.mk.inj (Option.some.inj result)
      have returned : sequence.NumbersReturn := of_decide_eq_true numbers
      obtain ⟨again, second, -, -, same⟩ := ingest_pretty_of_ingest ingested returned
      exact ⟨sequence, again, rfl, ids, returned, second, same⟩

end MotionSteps.Response
