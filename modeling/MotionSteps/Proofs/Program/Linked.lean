import Mathlib.Data.List.Nodup
import Mathlib.Data.List.Range
import MotionSteps.Program.Compilation
import MotionSteps.Proofs.Graph.Walk
import MotionSteps.Proofs.Lists

/-!
# Compiled programs are linked lists

A compiled program has one step for each node of the graph, in step order. The
identifiers of the steps are distinct however many there are, so a look-up finds the
step that was meant, and a run that looks up one next step after the other passes
through the whole program. `program_of_reachable` states this of every graph with a
history.
-/

namespace MotionSteps

/-! ## Identifiers and runs -/

/-- The identifier of a step tells its position: leading zeros do not change the number
that the digits spell. -/
theorem stepId_injective : Function.Injective stepId := by
  intro first second same
  have spelled : ∀ position,
      Nat.ofDigitChars 10 ((stepId position).toList.drop 5) 0 = position + 1 := by
    intro position
    simp [stepId, Nat.ofDigitChars_append]
  have numbers : first + 1 = second + 1 := by rw [← spelled first, ← spelled second, same]
  omega

namespace Sequence

/-- A run from a step on. It looks up the next step again and again, and ends at a step
that names none. -/
inductive Runs (sequence : Sequence) : Step → List Step → Prop where
  | last {step : Step} (ends : step.next = none) : Runs sequence step [step]
  | goOn {step following : Step} {id : String} {rest : List Step} (leads : step.next = some id)
      (found : sequence.step? id = some following) (further : Runs sequence following rest) :
      Runs sequence step (step :: rest)

/-- Each step carries the identifier of its position and names the step behind it. -/
structure Numbered (sequence : Sequence) : Prop where
  id_eq : ∀ position step, sequence.steps[position]? = some step → step.id = stepId position
  next_eq : ∀ position step, sequence.steps[position]? = some step →
    step.next =
      if position + 1 < sequence.steps.length then some (stepId (position + 1)) else none

namespace Numbered

variable {sequence : Sequence}

theorem map_id (numbered : sequence.Numbered) :
    sequence.steps.map Step.id = (List.range sequence.steps.length).map stepId := by
  apply List.ext_getElem?
  intro position
  rw [List.getElem?_map, List.getElem?_map]
  by_cases inside : position < sequence.steps.length
  · rw [List.getElem?_eq_getElem inside, List.getElem?_range inside]
    exact congrArg some (numbered.id_eq position _ (List.getElem?_eq_getElem inside))
  · rw [List.getElem?_eq_none (by omega), List.getElem?_eq_none (by simpa using inside)]
    rfl

/-- No identifier is used twice. -/
theorem ids_nodup (numbered : sequence.Numbered) : (sequence.steps.map Step.id).Nodup := by
  rw [numbered.map_id]
  exact List.nodup_range.map stepId_injective

/-- Looking up the identifier of a step finds that step. -/
theorem step?_id (numbered : sequence.Numbered) {position : Nat} {step : Step}
    (there : sequence.steps[position]? = some step) : sequence.step? step.id = some step :=
  find?_of_nodup_map numbered.ids_nodup (List.mem_of_getElem? there)

/-- Only the last step names no next one. -/
theorem next_eq_none_iff (numbered : sequence.Numbered) {position : Nat} {step : Step}
    (there : sequence.steps[position]? = some step) :
    step.next = none ↔ position + 1 = sequence.steps.length := by
  obtain ⟨inside, -⟩ := List.getElem?_eq_some_iff.mp there
  rw [numbered.next_eq position step there]
  split
  · simp only [reduceCtorEq, false_iff]
    omega
  · simp only [true_iff]
    omega

/-- A run from any step passes through all that stand behind it. The induction is on
their number. -/
theorem runs_drop (numbered : sequence.Numbered) {position : Nat} {step : Step}
    (there : sequence.steps[position]? = some step) :
    sequence.Runs step (sequence.steps.drop position) := by
  induction behind : sequence.steps.length - (position + 1) generalizing position step with
  | zero =>
      obtain ⟨inside, rfl⟩ := List.getElem?_eq_some_iff.mp there
      rw [List.drop_eq_getElem_cons inside, List.drop_eq_nil_of_le (by omega)]
      exact .last ((numbered.next_eq_none_iff there).mpr (by omega))
  | succ behind inductionHypothesis =>
      obtain ⟨inside, rfl⟩ := List.getElem?_eq_some_iff.mp there
      have insideToo : position + 1 < sequence.steps.length := by omega
      have next := List.getElem?_eq_getElem insideToo
      have leads := numbered.next_eq position _ there
      rw [if_pos insideToo, ← numbered.id_eq (position + 1) _ next] at leads
      rw [List.drop_eq_getElem_cons inside]
      exact .goOn leads (numbered.step?_id next) (inductionHypothesis next (by omega))

/-- A run from the first step passes through the whole program. -/
theorem runs (numbered : sequence.Numbered) {first : Step}
    (begins : sequence.steps.head? = some first) : sequence.Runs first sequence.steps := by
  rw [List.head?_eq_getElem?] at begins
  simpa using numbered.runs_drop begins

end Numbered

end Sequence

/-! ## The steps of a graph -/

section

variable (node : Node) (count position : Nat)

@[simp] theorem Node.compiled_node : (node.compiled count position).node = node.id := rfl

@[simp] theorem Node.compiled_id :
    (node.compiled count position).step.id = stepId position := rfl

@[simp] theorem Node.compiled_kind :
    (node.compiled count position).step.kind = node.kind := by
  simp only [Node.compiled]

@[simp] theorem Node.compiled_params :
    (node.compiled count position).step.params =
      (node.kind.extractText node.document).value := by
  simp only [Node.compiled]

@[simp] theorem Node.compiled_next :
    (node.compiled count position).step.next =
      if position + 1 < count then some (stepId (position + 1)) else none := rfl

@[simp] theorem Node.compiled_issues :
    (node.compiled count position).issues =
      (node.kind.extractText node.document).issues := by
  simp only [Node.compiled]

end

namespace Graph

variable {graph : Graph}

/-- Compilation drops no node of a line that consists of nodes of the graph. -/
theorem getElem?_compiledSteps {line : Linearization}
    (live : ∀ id ∈ line.order, graph.Live id) (position : Nat) :
    (graph.compiledSteps line)[position]? =
      line.order[position]?.bind fun id =>
        (graph.node? id).map fun node => node.compiled line.order.length position := by
  rw [compiledSteps, getElem?_filterMap_of_isSome, List.getElem?_zipIdx, Nat.zero_add]
  · cases line.order[position]? <;> rfl
  · rintro ⟨id, place⟩ member
    obtain ⟨node, held⟩ := live id (List.fst_mem_of_mem_zipIdx member)
    simp only [held, Option.map_some, Option.isSome_some]

namespace WellFormed

theorem live_of_mem_order (wellFormed : graph.WellFormed) :
    ∀ id ∈ graph.linearize.order, graph.Live id :=
  fun _ => wellFormed.mem_order_iff.mp

/-- The step at a position is that of the node at the same position in step order. -/
theorem compiledSteps_at (wellFormed : graph.WellFormed) {position : Nat} {id : NodeId}
    (there : graph.linearize.order[position]? = some id) :
    ∃ node, graph.node? id = some node ∧
      (graph.compiledSteps graph.linearize)[position]? =
        some (node.compiled graph.linearize.order.length position) := by
  obtain ⟨node, held⟩ := wellFormed.live_of_mem_order id (List.mem_of_getElem? there)
  refine ⟨node, held, ?_⟩
  rw [getElem?_compiledSteps wellFormed.live_of_mem_order, there, Option.bind_some, held,
    Option.map_some]

/-- The program has the kind and the parameters of that node there. -/
theorem exists_step_at (wellFormed : graph.WellFormed) {position : Nat} {id : NodeId}
    (there : graph.linearize.order[position]? = some id) :
    ∃ node step, graph.node? id = some node ∧
      ((graph.compiledSteps graph.linearize).map CompiledStep.step)[position]? = some step ∧
      step.id = stepId position ∧ step.kind = node.kind ∧
      step.params = (node.kind.extractText node.document).value := by
  obtain ⟨node, held, compiled⟩ := wellFormed.compiledSteps_at there
  refine ⟨node, (node.compiled graph.linearize.order.length position).step, held, ?_,
    node.compiled_id _ _, node.compiled_kind _ _, node.compiled_params _ _⟩
  rw [List.getElem?_map, compiled, Option.map_some]

/-- The steps stem from the nodes in step order, each from one. -/
theorem map_node_compiledSteps (wellFormed : graph.WellFormed) :
    (graph.compiledSteps graph.linearize).map CompiledStep.node = graph.linearize.order := by
  apply List.ext_getElem?
  intro position
  rw [List.getElem?_map]
  cases there : graph.linearize.order[position]? with
  | none => rw [getElem?_compiledSteps wellFormed.live_of_mem_order, there]; rfl
  | some id =>
      obtain ⟨node, held, compiled⟩ := wellFormed.compiledSteps_at there
      rw [compiled]
      exact congrArg some (wellFormed.id_of_node? held)

theorem length_compiledSteps (wellFormed : graph.WellFormed) :
    (graph.compiledSteps graph.linearize).length = graph.linearize.order.length := by
  rw [← wellFormed.map_node_compiledSteps, List.length_map]

/-- Every step stems from a node that stands at its position. -/
theorem of_compiledSteps_at (wellFormed : graph.WellFormed) {position : Nat}
    {compiled : CompiledStep}
    (there : (graph.compiledSteps graph.linearize)[position]? = some compiled) :
    ∃ node, graph.node? compiled.node = some node ∧
      graph.linearize.order[position]? = some compiled.node ∧
      compiled = node.compiled graph.linearize.order.length position := by
  have inOrder : graph.linearize.order[position]? = some compiled.node := by
    rw [← wellFormed.map_node_compiledSteps, List.getElem?_map, there]
    rfl
  obtain ⟨node, held, same⟩ := wellFormed.compiledSteps_at inOrder
  exact ⟨node, held, inOrder, Option.some.inj (there.symm.trans same)⟩

/-- Every step of the program is that of some node, at its own position. -/
theorem eq_compiled_of_step_at (wellFormed : graph.WellFormed) {position : Nat} {step : Step}
    (there : ((graph.compiledSteps graph.linearize).map CompiledStep.step)[position]? =
      some step) :
    ∃ node : Node, step = (node.compiled graph.linearize.order.length position).step := by
  rw [List.getElem?_map, Option.map_eq_some_iff] at there
  obtain ⟨compiled, compiledThere, rfl⟩ := there
  obtain ⟨node, -, -, same⟩ := wellFormed.of_compiledSteps_at compiledThere
  exact ⟨node, congrArg CompiledStep.step same⟩

/-- The step order lists the handles of the graph, each once. -/
theorem order_perm (wellFormed : graph.WellFormed) :
    graph.linearize.order.Perm graph.nodeIds := by
  refine (List.perm_ext_iff_of_nodup wellFormed.order_nodup wellFormed.nodeIds_nodup).mpr ?_
  intro id
  rw [wellFormed.mem_order_iff, wellFormed.mem_nodeIds_iff]

end WellFormed

/-- A graph with a node has a program. -/
theorem compile_of_nodes_ne_nil (settings : Settings) (nonempty : graph.nodes ≠ []) :
    graph.compile settings =
      .ok ⟨settings.sequenceName,
        (graph.compiledSteps graph.linearize).map CompiledStep.step⟩ := by
  have filled : graph.isEmpty = false := by simpa [isEmpty] using nonempty
  simp [compile, filled]

/-- The steps of a compiled program are numbered. -/
theorem WellFormed.numbered (wellFormed : graph.WellFormed) (name : String) :
    Sequence.Numbered
      ⟨name, (graph.compiledSteps graph.linearize).map CompiledStep.step⟩ := by
  constructor
  · intro position step there
    obtain ⟨node, rfl⟩ := wellFormed.eq_compiled_of_step_at there
    rw [Node.compiled_id]
  · intro position step there
    obtain ⟨node, rfl⟩ := wellFormed.eq_compiled_of_step_at there
    rw [List.length_map, wellFormed.length_compiledSteps, Node.compiled_next]

/-- The program of a graph with a history. Only a graph without nodes has none. The
program has one step for each node, in step order, with the kind and the parameters of
the node. Its identifiers are distinct, each is found by look-up, and a run from the
first step passes through all steps once and in order and ends at the only one that names
no next step. -/
theorem program_of_reachable (reachable : graph.Reachable) (settings : Settings) :
    (graph.nodes = [] →
      ∃ failure, graph.compile settings = .error failure ∧ failure.code = "C001") ∧
    (graph.nodes ≠ [] →
      ∃ sequence, graph.compile settings = .ok sequence ∧
        sequence.name = settings.sequenceName ∧
        graph.linearize.order.Perm graph.nodeIds ∧
        sequence.steps.length = graph.linearize.order.length ∧
        (∀ (position : Nat) (id : NodeId), graph.linearize.order[position]? = some id →
          ∃ (node : Node) (step : Step), graph.node? id = some node ∧
            sequence.steps[position]? = some step ∧ step.kind = node.kind ∧
            step.params = (node.kind.extractText node.document).value) ∧
        (sequence.steps.map Step.id).Nodup ∧
        (∀ (position : Nat) (step : Step), sequence.steps[position]? = some step →
          step.id = stepId position ∧ sequence.step? step.id = some step ∧
          (step.next = none ↔ position + 1 = sequence.steps.length)) ∧
        ∃ first, sequence.steps.head? = some first ∧ sequence.Runs first sequence.steps) := by
  have wellFormed := reachable.wellFormed
  constructor
  · intro nothing
    have noNodes : graph.isEmpty = true := by simp [isEmpty, nothing]
    exact ⟨.emptyGraph, by simp [compile, noNodes], rfl⟩
  · intro nonempty
    have numbered := wellFormed.numbered settings.sequenceName
    have length := wellFormed.length_compiledSteps
    refine ⟨_, compile_of_nodes_ne_nil settings nonempty, rfl, wellFormed.order_perm, ?_, ?_,
      numbered.ids_nodup, ?_, ?_⟩
    · rw [List.length_map, length]
    · intro position id there
      obtain ⟨node, step, held, stepThere, -, kind, params⟩ := wellFormed.exists_step_at there
      exact ⟨node, step, held, stepThere, kind, params⟩
    · intro position step there
      exact ⟨numbered.id_eq position step there, numbered.step?_id there,
        numbered.next_eq_none_iff there⟩
    · have positive : 0 < (graph.compiledSteps graph.linearize).length := by
        rw [length, wellFormed.order_perm.length_eq, nodeIds, List.length_map]
        exact List.length_pos_iff.mpr nonempty
      cases steps : graph.compiledSteps graph.linearize with
      | nil => simp [steps] at positive
      | cons first rest =>
          rw [steps] at numbered
          exact ⟨first.step, rfl, numbered.runs rfl⟩

theorem program_after_busyHistory :
    (empty.Reachable ∧ ∃ failure, empty.compile {} = .error failure ∧ failure.code = "C001") ∧
      (empty.run busyHistory).Reachable ∧ (empty.run busyHistory).nodes ≠ [] ∧
      ∃ sequence, (empty.run busyHistory).compile {} = .ok sequence ∧
        sequence.steps.length = 3 ∧ (sequence.steps.map Step.id).Nodup ∧
        ∃ first, sequence.steps.head? = some first ∧ sequence.Runs first sequence.steps := by
  have atOnce : empty.Reachable := ⟨[], rfl⟩
  have reachable : (empty.run busyHistory).Reachable := ⟨busyHistory, rfl⟩
  have nonempty : (empty.run busyHistory).nodes ≠ [] := by decide +kernel
  have three : (empty.run busyHistory).linearize.order.length = 3 := by decide +kernel
  obtain ⟨sequence, compiled, -, -, length, -, distinct, -, runs⟩ :=
    (program_of_reachable reachable {}).2 nonempty
  exact ⟨⟨atOnce, (program_of_reachable atOnce {}).1 rfl⟩, reachable, nonempty, sequence, compiled,
    length.trans three, distinct, runs⟩

end Graph

end MotionSteps
