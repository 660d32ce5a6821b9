import MotionSteps.Proofs.Program.Linked
import MotionSteps.Proofs.Response.RoundTrip

/-!
# Compiled programs are ingested as they are

A compiled program is settled: its identifiers and followers are those of the positions, the
kinds are what labels mean, and extraction keeps the form of the parameters. An object that is
passed on was read as part of a document, so its keys stand in order, but it may open more
containers than can be read below those of a program. `ingest_compiled_of_reachable` therefore
asks for this depth, and for numbers that come back.
-/

namespace MotionSteps

open Json

/-- The number of containers that stand one inside another in an object that is passed on. -/
def Params.passedDepth : Params → Nat
  | .passthrough members => (Json.object members).depth
  | _ => 0

/-- An object that is passed on can be read wherever as many containers may be opened as it
has. -/
theorem Params.Readable.of_passedDepth_le {params : Params} {depth limit : Nat}
    (readable : params.Readable depth) (within : params.passedDepth ≤ limit) :
    params.Readable limit := by
  rintro members rfl
  exact (readable members rfl).of_depth_le within

/-! ## Parameters out of documents -/

namespace Json

theorem Readable.of_object? {depth : Nat} {members inner : Members}
    (readable : Readable (depth + 1) (.object members)) {key : String}
    (found : members.object? [key] = some inner) : Readable depth (.object inner) := by
  obtain ⟨value, present, same⟩ := Option.bind_eq_some_iff.mp found
  cases value with
  | object members =>
      cases same
      simp only [Members.present?, Members.follow?] at present
      split at present
      · cases present
      · exact readable.of_get? present
  | _ => cases same

/-- What the members of a readable document resolve to is readable one level below. -/
theorem Members.params_readable {depth : Nat} {members : Members}
    (readable : Readable (depth + 2) (.object members)) (kind : StepKind) :
    (members.params kind).value.Readable (depth + 1) := by
  have passed : Readable (depth + 1) (.object ((members.object? ["params"]).getD [])) := by
    cases found : members.object? ["params"] with
    | none => exact .empty depth
    | some inner => exact readable.of_object? found
  intro inner resolved
  have fits := members.params_fits kind
  rw [resolved] at fits
  cases fits with
  | _ =>
      cases resolved
      exact passed

end Json

namespace StepKind

variable (kind : StepKind)

theorem defaultParams_readable (issue : Issue) (depth : Nat) :
    (kind.defaultParams issue).value.Readable (depth + 1) :=
  Members.params_readable (.empty (depth + 1)) kind

theorem extract_readable {document : Option Json} {depth : Nat}
    (readable : ∀ value ∈ document, Json.Readable (depth + 2) value) :
    (kind.extract document).value.Readable (depth + 1) := by
  fun_cases extract kind document with
  | case1 => exact kind.defaultParams_readable .missing depth
  | case2 members => exact Members.params_readable (readable _ rfl) kind
  | case3 found notObject => exact kind.defaultParams_readable _ depth

/-- What the text of a document resolves to opens fewer containers than a document may. -/
theorem extractText_readable (document : Option String) :
    (kind.extractText document).value.Readable (maxDepth - 1) := by
  fun_cases extractText kind document with
  | case1 => exact kind.extract_readable (by simp)
  | case2 => exact kind.extract_readable (by simp)
  | case3 raw text given value parsed =>
      refine kind.extract_readable fun found given => ?_
      cases given
      exact .of_parse parsed
  | case4 raw text given error unreadable => exact kind.defaultParams_readable _ _

end StepKind

/-! ## Programs -/

/-- The step of a node is settled if the object that it passes on is not too deep. -/
theorem Node.settled_compiled (node : Node) (count position : Nat)
    (within : (node.compiled count position).step.params.passedDepth ≤ Response.paramsDepth) :
    (node.compiled count position).step.Settled := by
  refine ⟨isEmpty_trim_stepId position, ?_, ?_, ?_⟩
  · rw [Node.compiled_kind]
    exact StepKind.ofLabel_name_ofLabel node.typeLabel
  · rw [Node.compiled_kind, Node.compiled_params]
    exact node.kind.extractText_fits node.document
  · have readable := node.kind.extractText_readable node.document
    rw [← Node.compiled_params node count position] at readable
    exact readable.of_passedDepth_le within

namespace Graph

variable {graph : Graph}

/-- A compiled program is settled if no object that it passes on is too deep. -/
theorem WellFormed.settled (wellFormed : graph.WellFormed) (settings : Settings)
    (within : ∀ step ∈ (graph.compiledSteps graph.linearize).map CompiledStep.step,
      step.params.passedDepth ≤ Response.paramsDepth) :
    Sequence.Settled settings
      ⟨settings.sequenceName, (graph.compiledSteps graph.linearize).map CompiledStep.step⟩ := by
  refine ⟨fun _ => rfl, ?_, ?_⟩
  · intro step listed
    obtain ⟨position, there⟩ := List.mem_iff_getElem?.mp listed
    obtain ⟨node, rfl⟩ := wellFormed.eq_compiled_of_step_at there
    exact node.settled_compiled _ position (within _ listed)
  · intro position step there more last
    have numbered := wellFormed.numbered settings.sequenceName
    exact Nat.ne_of_lt more ((numbered.next_eq_none_iff there).mp last)

/-- The text of a compiled program is ingested as that program: name, identifiers, kinds,
parameters and followers are the same, and so is the text that is printed again. This holds of
every graph with a history that is not empty, under every name, as long as the objects that
are passed on have no more than 124 levels and the numbers are read back as the ones that were
printed. -/
theorem ingest_compiled_of_reachable (reachable : graph.Reachable) (nonempty : graph.nodes ≠ [])
    (settings : Settings) :
    ∃ sequence, graph.compile settings = .ok sequence ∧
      ((∀ step ∈ sequence.steps, step.params.passedDepth ≤ 124) → sequence.NumbersReturn →
        ∃ again, Response.ingest sequence.pretty settings = .ok again ∧
          again.name = sequence.name ∧
          again.steps.map Step.content = sequence.steps.map Step.content ∧
          again.pretty = sequence.pretty) :=
  ⟨_, compile_of_nodes_ne_nil settings nonempty, fun within numbers =>
    Response.ingest_pretty (reachable.wellFormed.settled settings within) numbers⟩

/-- A history that leaves a move with a speed in a text, a jump, and a step of a kind that is
not known, with nested parameters. -/
def mixedHistory : List Edit := [
  .addNode { typeLabel := "linear move", document := some "\x7b\"speed\":\"2.5\"\x7d" },
  .addNode { typeLabel := "END" },
  .addNode { typeLabel := "goto", document := some "\x7b\"label\":\"\x7d\"\x7d" },
  .addNode
    { typeLabel := " weld "
      document := some "\x7b\"params\":\x7b\"b\":[1,\x7b\x7d],\"a\":\"\x7b\"\x7d\x7d" },
  .connect ⟨3⟩ ⟨0⟩,
  .removeNode ⟨1⟩]

theorem ingest_compiled_after_mixedHistory :
    (empty.run mixedHistory).Reachable ∧ (empty.run mixedHistory).nodes ≠ [] ∧
      ∃ sequence again, (empty.run mixedHistory).compile ⟨" \"\x7b\n"⟩ = .ok sequence ∧
        sequence.steps.map (fun step => step.params.passedDepth) = [0, 0, 3] ∧
        sequence.NumbersReturn ∧ Response.ingest sequence.pretty ⟨" \"\x7b\n"⟩ = .ok again ∧
        again.pretty = sequence.pretty := by
  have reachable : (empty.run mixedHistory).Reachable := ⟨mixedHistory, rfl⟩
  have nonempty : (empty.run mixedHistory).nodes ≠ [] := by decide +kernel
  have result : (((empty.run mixedHistory).compile ⟨" \"\x7b\n"⟩).toOption.map fun sequence =>
      (sequence.steps.map fun step => step.params.passedDepth,
        decide sequence.NumbersReturn)) = some ([0, 0, 3], true) := by decide +kernel
  obtain ⟨sequence, compiled, ingested⟩ :=
    ingest_compiled_of_reachable reachable nonempty ⟨" \"\x7b\n"⟩
  rw [compiled] at result
  obtain ⟨depths, numbers⟩ := Prod.mk.inj (Option.some.inj result)
  have shallow : ∀ depth ∈ sequence.steps.map fun step => step.params.passedDepth,
      depth ≤ 124 := by
    rw [depths]
    decide
  have returned : sequence.NumbersReturn := of_decide_eq_true numbers
  obtain ⟨again, second, -, -, same⟩ := ingested (List.forall_mem_map.mp shallow) returned
  exact ⟨reachable, nonempty, sequence, again, compiled, depths, returned, second, same⟩

end Graph

end MotionSteps
