import MotionSteps.Proofs.Program.Linked
import MotionSteps.Proofs.Response.Identifiers
import MotionSteps.Proofs.Step.Schema

/-!
# Steps in canonical form

There are two ways to a program, out of a graph and out of a response, and both end in the same
extraction. So every step of a program has the parameters of its own type, with the members of
that type in their order and with numbers that can be written. `canonical_of_produced` states
this of every program, together with the text in which the parameters of a step are written.
-/

namespace MotionSteps

/-- A program that is compiled from a graph with a history or found in a text. -/
inductive Sequence.Produced : Sequence → Prop where
  | compiled {graph : Graph} {settings : Settings} {sequence : Sequence}
      (reachable : graph.Reachable) (compiles : graph.compile settings = .ok sequence) :
      Produced sequence
  | ingested {text : String} {settings : Settings} {sequence : Sequence}
      (ingests : Response.ingest text settings = .ok sequence) : Produced sequence

/-- The parameters of a step have the canonical form of its kind. -/
structure Step.Canonical (step : Step) : Prop where
  fits : Params.Fits step.kind step.params
  passesOn : (∃ members, step.params = .passthrough members) ↔
    step.kind = .start ∨ step.kind = .finish ∨ step.kind = .io ∨ ∃ name, step.kind = .other name
  floats : ∀ value ∈ step.params.floats, value.isFinite = true
  integers : ∀ value ∈ step.params.integers,
    Number.integerMin ≤ value ∧ value ≤ Number.integerMax
  direction : ∀ record, step.params = .circularMove record →
    record.direction.name = "CW" ∨ record.direction.name = "CCW"
  /-- The parameters of a kind with a record are an object with the members of the record. -/
  conforms : ∀ fields, step.kind.fields? = some fields →
    step.params.toJson.Conforms (.record fields)
  /-- This object is written member by member, in every layout. -/
  written : ∀ fields, step.kind.fields? = some fields → ∀ layout depth,
    (Schema.record fields).Writes layout depth (Json.chars layout depth step.params.toJson)

/-- A kind has no record exactly if its parameters are passed on. -/
theorem StepKind.fields?_eq_none_iff {kind : StepKind} :
    kind.fields? = none ↔
      kind = .start ∨ kind = .finish ∨ kind = .io ∨ ∃ name, kind = .other name := by
  cases kind <;> simp [fields?]

theorem Step.canonical_of_params {step : Step}
    (canonical : Params.Canonical step.kind step.params) : step.Canonical where
  fits := canonical.fits
  passesOn := canonical.passthrough_iff.trans StepKind.fields?_eq_none_iff
  floats := canonical.floats
  integers := canonical.integers
  direction record _ := by
    cases record.direction
    · exact .inl rfl
    · exact .inr rfl
  conforms _ := canonical.conforms
  written _ typed layout depth := (canonical.conforms typed).writes layout depth

/-- The parameters of a generated step are canonical. Only kinds with a record of their own
resolve any fields. -/
theorem Response.GeneratedStep.resolvedParams_canonical (step : Response.GeneratedStep)
    (kind : StepKind) : (step.resolvedParams kind).Canonical kind := by
  cases kind with
  | start => exact ⟨.start _, List.forall_mem_nil _, List.forall_mem_nil _⟩
  | finish => exact ⟨.finish _, List.forall_mem_nil _, List.forall_mem_nil _⟩
  | io => exact ⟨.io _, List.forall_mem_nil _, List.forall_mem_nil _⟩
  | other name => exact ⟨.other name _, List.forall_mem_nil _, List.forall_mem_nil _⟩
  | _ => exact StepKind.extract_canonical _ step.params

namespace Sequence

/-- Every step of a program has the canonical form of its kind, whichever way the program came
about. -/
theorem canonical_of_produced {sequence : Sequence} (produced : sequence.Produced) :
    ∀ step ∈ sequence.steps, step.Canonical := by
  intro step member
  obtain ⟨position, there⟩ := List.mem_iff_getElem?.mp member
  cases produced with
  | @compiled graph settings _ reachable compiles =>
      have nonempty : graph.nodes ≠ [] := by
        intro nothing
        simp [Graph.compile, Graph.isEmpty, nothing] at compiles
      rw [Graph.compile_of_nodes_ne_nil settings nonempty] at compiles
      obtain rfl := Except.ok.inj compiles
      obtain ⟨node, rfl⟩ := reachable.wellFormed.eq_compiled_of_step_at there
      refine Step.canonical_of_params ?_
      rw [Node.compiled_kind, Node.compiled_params]
      exact node.kind.extractText_canonical node.document
  | @ingested text settings _ ingests =>
      obtain ⟨generated, -, rfl⟩ := Response.exists_read_of_ingest ingests
      rw [Response.GeneratedSequence.toSequence_getElem?] at there
      obtain ⟨given, -, same⟩ := Option.map_eq_some_iff.mp there
      have canonical := given.resolvedParams_canonical (StepKind.ofLabel given.typeLabel)
      -- The type label is not looked at: what holds of its kind holds of every kind.
      generalize StepKind.ofLabel given.typeLabel = kind at same canonical
      subst same
      exact Step.canonical_of_params canonical

/-- What is seen of a result is seen of its value. -/
theorem exists_ok_of_toOption {ε α β : Type} {result : Except ε α} {holds : α → Prop}
    {view : α → β} {seen : β} (found : result.toOption.map view = some seen)
    (each : ∀ value, result = .ok value → holds value) :
    ∃ value, result = .ok value ∧ holds value ∧ view value = seen := by
  cases result with
  | error failure => cases found
  | ok value => exact ⟨value, rfl, each value rfl, Option.some.inj found⟩

/-- A history of steps whose documents spell numbers beyond all bounds and directions in any
capitals. -/
def boundlessHistory : List Edit := [
  .addNode
    { typeLabel := "motion"
      document := some "\x7b\"pos\":\"inf\",\"speed\":\x7b\"value\":\"1e999\",\"unit\":1\x7d\x7d" },
  .addNode
    { typeLabel := "arc"
      document := some "\x7b\"dir\":\" cCw\",\"end\":\x7b\"x\":\"nan\",\"Y\":-0.5\x7d\x7d" },
  .addNode { typeLabel := "wait", document := some "\x7b\"delay\":\"-1e300\"\x7d" },
  .addNode { typeLabel := "Weld", document := some "\x7b\"params\":\x7b\"a\":null\x7d\x7d" }]

/-- A response with a distance beyond all bounds. -/
def boundlessResponse : String :=
  "\x7b\"steps\":[[\"\",\"rel move\",\x7b\"dist\":\"-inf\"\x7d]]\x7d"

/-- The parameters of the steps, as they are written. -/
def paramsTexts (sequence : Sequence) : List String :=
  sequence.steps.map fun step => step.params.toJson.compact

theorem canonical_of_boundless :
    (Graph.empty.run boundlessHistory).Reachable ∧
      (∃ sequence, (Graph.empty.run boundlessHistory).compile {} = .ok sequence ∧
        (∀ step ∈ sequence.steps, step.Canonical) ∧ sequence.paramsTexts =
          ["\x7b\"axis\":\"\",\"pos\":0,\"speed\":0\x7d",
            "\x7b\"center\":\x7b\"X\":0,\"Y\":0\x7d,\"end\":\x7b\"X\":0,\"Y\":-0.5\x7d," ++
              "\"direction\":\"CCW\"\x7d",
            "\x7b\"delay_ms\":-9223372036854775808\x7d", "\x7b\"a\":null\x7d"]) ∧
      ∃ sequence, Response.ingest boundlessResponse {} = .ok sequence ∧
        (∀ step ∈ sequence.steps, step.Canonical) ∧
        sequence.paramsTexts = ["\x7b\"axis\":\"\",\"distance\":0,\"speed\":0\x7d"] := by
  have reachable : (Graph.empty.run boundlessHistory).Reachable := ⟨boundlessHistory, rfl⟩
  exact ⟨reachable,
    exists_ok_of_toOption (by decide +kernel) fun sequence compiles =>
      canonical_of_produced (.compiled reachable compiles),
    exists_ok_of_toOption (by decide +kernel) fun sequence ingests =>
      canonical_of_produced (.ingested ingests)⟩

end Sequence

end MotionSteps
