import MotionSteps.Proofs.Response.Identifiers
import MotionSteps.Proofs.Step.Kind
import MotionSteps.Proofs.Step.RoundTrip

/-!
# Programs that are ingested as they are

A program in the proper form is itself a response. `Sequence.Settled` names what must hold of
it so that nothing is filled in and nothing is put into another form: no blank identifiers, no
missing followers, kinds that are their own names, parameters in the form of their kind.
`ingest_pretty` shows that the text of such a program is ingested as that program. What is
compiled is settled, and so is what was ingested before.
-/

namespace MotionSteps

open Json

/-- An object that is passed on opens no more containers than can be read. -/
def Params.Readable (limit : Nat) (params : Params) : Prop :=
  ∀ members, params = .passthrough members → Json.Readable limit (.object members)

/-- A step that is read from a response as it is. -/
structure Step.Settled (step : Step) : Prop where
  named : (Text.trim step.id).isEmpty = false
  kind : StepKind.ofLabel step.kind.name = step.kind
  fits : Params.Fits step.kind step.params
  readable : step.params.Readable Response.paramsDepth

/-- A program of which nothing is filled in or changed when it is ingested. -/
structure Sequence.Settled (settings : Settings) (sequence : Sequence) : Prop where
  name : (Text.trim sequence.name).isEmpty = true → sequence.name = settings.sequenceName
  steps : ∀ step ∈ sequence.steps, step.Settled
  linked : ∀ (position : Nat) (step : Step), sequence.steps[position]? = some step →
    position + 1 < sequence.steps.length → step.next ≠ none

/-- Every number of a program comes back as the one that was printed. -/
def Sequence.NumbersReturn (sequence : Sequence) : Prop :=
  ∀ step ∈ sequence.steps, step.params.NumbersReturn

instance (sequence : Sequence) : Decidable sequence.NumbersReturn :=
  inferInstanceAs (Decidable (∀ step ∈ sequence.steps, step.params.NumbersReturn))

/-- The identifier of a position is not blank. -/
theorem isEmpty_trim_stepId (position : Nat) : (Text.trim (stepId position)).isEmpty = false := by
  rw [Bool.eq_false_iff, Ne, String.isEmpty_iff, Text.trim_eq_empty_iff]
  intro blank
  have first : Text.isBlank 'n' = true := blank 'n' (by simp [stepId])
  exact absurd first (by decide)

/-- What a step says, with its parameters as they are printed. -/
def Step.content (step : Step) : String × StepKind × Json × Option String :=
  (step.id, step.kind, step.params.toJson, step.next)

theorem Sequence.pretty_congr {first second : Sequence} (name : first.name = second.name)
    (steps : first.steps.map Step.content = second.steps.map Step.content) :
    first.pretty = second.pretty := by
  have printed : ∀ sequence : Sequence, sequence.steps.map Step.toJson =
      (sequence.steps.map Step.content).map fun (id, kind, params, next) =>
        .object [("id", .string id), ("type", kind.toJson), ("params", params),
          ("next", .ofText? next)] := by
    intro sequence
    rw [List.map_map]
    rfl
  simp only [pretty, toJson, members, printed, name, steps]

namespace Response

/-! ## The text of an object -/

theorem objectChars_braces (inner : List Char) :
    objectChars ('\x7b' :: inner ++ ['\x7d']) = '\x7b' :: inner ++ ['\x7d'] := by
  simp [objectChars]

/-- A text that is one object is found as a whole. -/
theorem object_pretty (members : Members) :
    object (Json.object members).pretty = .ok (Json.object members).pretty := by
  obtain ⟨inner, text⟩ := exists_objectChars .indented 0 members
  simp only [object, Json.pretty, String.toList_ofList, text, objectChars_braces]
  rfl

/-! ## Steps and programs -/

/-- A generated step that is read where a step was printed and says the same. -/
structure Rereads (step : Step) (generated : GeneratedStep) : Prop where
  read : Reads GeneratedStep.form.reader step.toJson generated
  id : generated.id = step.id
  label : generated.typeLabel = step.kind.name
  params : (generated.resolvedParams step.kind).toJson = step.params.toJson
  next : generated.next = step.next

theorem reads_step (step : Step) {members : Members}
    (read : Reads (Reader.value paramsDepth) step.params.toJson (.object members)) :
    Reads GeneratedStep.form.reader step.toJson
      ⟨step.id, step.kind.name, some (.object members), step.next⟩ := by
  have absorbed : Absorbs GeneratedStep.form.member ⟨[], GeneratedStep.form.blank⟩
      [("id", .string step.id), ("type", step.kind.toJson), ("params", step.params.toJson),
        ("next", .ofText? step.next)]
      ⟨["next", "params", "type", "id"],
        ⟨step.id, step.kind.name, some (.object members), step.next⟩⟩ :=
    .cons rfl (((Reads.string step.id).map _).map _)
      (.cons rfl (((Reads.string step.kind.name).map _).map _)
        (.cons rfl (((Reads.valueOrNull read (by simp)).map _).map _)
          (.cons rfl (((Reads.stringOrNull step.next).map _).map _) (.nil _))))
  exact Reads.record absorbed rfl

/-- Parameters are read back as an object, and a step that gives this object has parameters
of which the same is printed. -/
def ParamsReturn (kind : StepKind) (params : Params) : Prop :=
  ∃ members : Members, Reads (Reader.value paramsDepth) params.toJson (.object members) ∧
    ∀ step : GeneratedStep, step.params = some (.object members) →
      (step.resolvedParams kind).toJson = params.toJson

theorem paramsReturn_of_returns {kind : StepKind} {params : Params} (returns : params.Returns kind)
    (typed : ∀ step : GeneratedStep,
      step.resolvedParams kind = (kind.extract step.params).value) : ParamsReturn kind params := by
  obtain ⟨members, read, same⟩ := returns 122
  refine ⟨members, read, fun step given => ?_⟩
  rw [typed, given]
  exact same

theorem paramsReturn_passthrough {kind : StepKind} {members : Members}
    (readable : Json.Readable paramsDepth (.object members))
    (numbers : (Params.passthrough members).NumbersReturn)
    (untyped : ∀ step : GeneratedStep,
      step.resolvedParams kind = .passthrough ((step.params.bind members?).getD [])) :
    ParamsReturn kind (.passthrough members) := by
  refine ⟨members, readable.reads numbers.passed, fun step given => ?_⟩
  rw [untyped, given]
  rfl

/-- The parameters of a settled step come back as those that were printed. -/
theorem paramsReturn {kind : StepKind} {params : Params} (fits : Params.Fits kind params)
    (readable : params.Readable paramsDepth) (numbers : params.NumbersReturn) :
    ParamsReturn kind params := by
  cases fits with
  | motion record =>
      exact paramsReturn_of_returns (Params.motion_returns record numbers) fun _ => rfl
  | wait record => exact paramsReturn_of_returns (Params.wait_returns record numbers) fun _ => rfl
  | linearMove record =>
      exact paramsReturn_of_returns (Params.linearMove_returns record numbers) fun _ => rfl
  | relativeMove record =>
      exact paramsReturn_of_returns (Params.relativeMove_returns record numbers) fun _ => rfl
  | circularMove record =>
      exact paramsReturn_of_returns (Params.circularMove_returns record numbers) fun _ => rfl
  | counter record =>
      exact paramsReturn_of_returns (Params.counter_returns record numbers) fun _ => rfl
  | goto record => exact paramsReturn_of_returns (Params.goto_returns record) fun _ => rfl
  | start members => exact paramsReturn_passthrough (readable _ rfl) numbers fun _ => rfl
  | finish members => exact paramsReturn_passthrough (readable _ rfl) numbers fun _ => rfl
  | io members => exact paramsReturn_passthrough (readable _ rfl) numbers fun _ => rfl
  | other name members => exact paramsReturn_passthrough (readable _ rfl) numbers fun _ => rfl

theorem Step.Settled.exists_rereads {step : Step} (settled : step.Settled)
    (numbers : step.params.NumbersReturn) : ∃ generated, Rereads step generated := by
  obtain ⟨members, read, resolved⟩ := paramsReturn settled.fits settled.readable numbers
  exact ⟨_, reads_step step read, rfl, rfl, resolved _ rfl, rfl⟩

theorem exists_forall₂_rereads {steps : List Step} (settled : ∀ step ∈ steps, step.Settled)
    (numbers : ∀ step ∈ steps, step.params.NumbersReturn) :
    ∃ generated, List.Forall₂ Rereads steps generated := by
  induction steps with
  | nil => exact ⟨[], .nil⟩
  | cons step steps inductionHypothesis =>
      obtain ⟨first, others⟩ := List.forall_mem_cons.mp settled
      obtain ⟨firstNumbers, otherNumbers⟩ := List.forall_mem_cons.mp numbers
      obtain ⟨generated, rereads⟩ := Step.Settled.exists_rereads first firstNumbers
      obtain ⟨rest, restRereads⟩ := inductionHypothesis others otherNumbers
      exact ⟨generated :: rest, .cons rereads restRereads⟩

theorem reads_sequence (sequence : Sequence) {generated : List GeneratedStep}
    (rereads : List.Forall₂ Rereads sequence.steps generated) :
    Reads GeneratedSequence.form.reader sequence.toJson ⟨some sequence.name, generated⟩ := by
  have steps : Reads (Reader.array GeneratedStep.form.reader)
      (.array (sequence.steps.map Step.toJson)) generated := by
    refine Reads.array (List.forall₂_map_left_iff.mpr (rereads.imp ?_))
    intro step generated same
    exact same.read
  have absorbed : Absorbs GeneratedSequence.form.member ⟨[], GeneratedSequence.form.blank⟩
      sequence.members ⟨["steps", "sequence_name"], ⟨some sequence.name, generated⟩⟩ :=
    .cons rfl (((Reads.stringOrNull (some sequence.name)).map _).map _)
      (.cons rfl ((steps.map _).map _) (.nil _))
  exact Reads.record absorbed rfl

/-- A step that was read back is put into the form that it had, if it has a follower or none
is filled in. -/
theorem Rereads.content_eq {step : Step} {generated : GeneratedStep}
    (rereads : Rereads step generated) (settled : step.Settled) {follower : Option String}
    (linked : step.next.or follower = step.next) (position : Nat) :
    Step.content
      { id := generated.resolvedId position
        kind := StepKind.ofLabel generated.typeLabel
        params := generated.resolvedParams (StepKind.ofLabel generated.typeLabel)
        next := generated.next.or follower } = step.content := by
  have given : generated.givesId = true := by
    rw [GeneratedStep.givesId, rereads.id, settled.named]
    rfl
  have kind : StepKind.ofLabel generated.typeLabel = step.kind := by
    rw [rereads.label, settled.kind]
  simp only [Step.content, GeneratedStep.resolvedId_of_givesId given, kind, rereads.id,
    rereads.params, rereads.next, linked]

/-- A settled program is generated as it is. -/
theorem content_toSequence {settings : Settings} {sequence : Sequence}
    (settled : sequence.Settled settings) {generated : List GeneratedStep}
    (rereads : List.Forall₂ Rereads sequence.steps generated) :
    (GeneratedSequence.toSequence ⟨some sequence.name, generated⟩ settings).steps.map
      Step.content = sequence.steps.map Step.content := by
  obtain ⟨sameLength, each⟩ := List.forall₂_iff_get.mp rereads
  apply List.ext_getElem?
  intro position
  rw [List.getElem?_map, List.getElem?_map, GeneratedSequence.toSequence_getElem?,
    Option.map_map]
  rcases Nat.lt_or_ge position sequence.steps.length with inside | outside
  · have generatedInside : position < generated.length := sameLength ▸ inside
    have stepThere := List.getElem?_eq_getElem inside
    have linked : sequence.steps[position].next.or
        (GeneratedSequence.ids ⟨some sequence.name, generated⟩)[position + 1]? =
          sequence.steps[position].next := by
      -- A follower would be filled in for the last step only, and behind it there is none.
      rcases Nat.lt_or_ge (position + 1) sequence.steps.length with more | last
      · obtain ⟨next, named⟩ := Option.ne_none_iff_exists'.mp (settled.linked _ _ stepThere more)
        rw [named, Option.some_or]
      · rw [GeneratedSequence.ids_getElem?, List.getElem?_eq_none (sameLength ▸ last),
          Option.map_none, Option.or_none]
    rw [stepThere, List.getElem?_eq_getElem generatedInside]
    exact congrArg some ((each position inside generatedInside).content_eq
      (settled.steps _ (List.getElem_mem inside)) linked position)
  · have generatedOutside : generated.length ≤ position := sameLength ▸ outside
    rw [List.getElem?_eq_none outside, List.getElem?_eq_none generatedOutside]
    rfl

/-- The text of a settled program is ingested as that program: nothing is filled in, and the
same text is printed again. -/
theorem ingest_pretty {settings : Settings} {sequence : Sequence}
    (settled : sequence.Settled settings) (numbers : sequence.NumbersReturn) :
    ∃ again, ingest sequence.pretty settings = .ok again ∧
      again.name = sequence.name ∧
      again.steps.map Step.content = sequence.steps.map Step.content ∧
      again.pretty = sequence.pretty := by
  obtain ⟨generated, rereads⟩ := exists_forall₂_rereads settled.steps numbers
  have content := content_toSequence settled rereads
  have name : (GeneratedSequence.toSequence ⟨some sequence.name, generated⟩ settings).name =
      sequence.name := by
    dsimp only [GeneratedSequence.toSequence]
    split
    · next blank => exact (settled.name blank).symm
    · rfl
  have parsed : GeneratedSequence.form.reader.parse sequence.pretty =
      .ok ⟨some sequence.name, generated⟩ := (reads_sequence sequence rereads).parse_pretty
  have found : object sequence.pretty = .ok sequence.pretty := object_pretty sequence.members
  refine ⟨_, ?_, name, content, Sequence.pretty_congr name content⟩
  rw [ingest_eq, read, found]
  simp only [bind, Except.bind, parsed, Except.mapError, Except.map]

end Response

end MotionSteps
