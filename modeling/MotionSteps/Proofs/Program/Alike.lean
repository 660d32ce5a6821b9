import MotionSteps.Proofs.Graph.Renaming
import MotionSteps.Proofs.Program.Linked

/-!
# What a program depends on

Two graphs are alike if their nodes, taken in order, have the same kinds and documents, and
the first connections lead from the same positions to the same positions. Nothing is asked of
handles, labels, coordinates and ports, of connections that are not the first of their node,
or of the order in which connections of different nodes were added. `compile_eq_of_alike`
shows that graphs with a history that are alike have the same program.
-/

namespace MotionSteps

/-- What the step of a node is compiled from. -/
def Node.instruction (node : Node) : StepKind × Option String :=
  (node.kind, node.document)

theorem Node.step_compiled_eq {node other : Node} (same : node.instruction = other.instruction)
    (count position : Nat) :
    (node.compiled count position).step = (other.compiled count position).step := by
  obtain ⟨kind, document⟩ := Prod.mk.inj same
  simp only [compiled, kind, document]

namespace Graph

/-- For each node the position of the one to which its first connection leads. -/
def successorPositions (graph : Graph) : List (Option Nat) :=
  graph.nodeIds.map fun id => (graph.firstSuccessor? id).bind graph.nodeIds.idxOf?

/-- Two graphs are the same in what their programs depend on. -/
structure Alike (first second : Graph) : Prop where
  instructions_eq : second.nodes.map Node.instruction = first.nodes.map Node.instruction
  successors_eq : second.successorPositions = first.successorPositions

/-- The handle in a second graph that stands where a handle stands in the first. -/
def counterpart (first second : Graph) (id : NodeId) : NodeId :=
  second.nodeIds.getD (first.nodeIds.idxOf id) id

/-- A first connection leads to the node at the position that is listed for it. -/
theorem WellFormed.firstSuccessor?_eq {graph : Graph} (wellFormed : graph.WellFormed)
    {position : Nat} {id : NodeId} (there : graph.nodeIds[position]? = some id) :
    graph.firstSuccessor? id =
      graph.successorPositions[position]?.bind fun leads => leads.bind (graph.nodeIds[·]?) := by
  rw [successorPositions, List.getElem?_map, there, Option.map_some, Option.bind_some]
  cases leads : graph.firstSuccessor? id with
  | none => rfl
  | some next =>
      have live := wellFormed.successor_live (mem_successors_of_firstSuccessor? leads)
      obtain ⟨target, found, stands⟩ := wellFormed.exists_position live
      rw [Option.bind_some, found, Option.bind_some, stands]

namespace Alike

variable {first second : Graph}

theorem length_eq (alike : Alike first second) : second.nodes.length = first.nodes.length := by
  simpa only [List.length_map] using congrArg List.length alike.instructions_eq

section

variable (alike : Alike first second) (wellFormed : first.WellFormed)

include alike wellFormed

/-- Nodes at the same position are counterparts. -/
theorem nodeIds_eq : second.nodeIds = first.nodeIds.map (counterpart first second) := by
  refine List.ext_getElem ?_ fun position inside insideFirst => ?_
  · rw [List.length_map, nodeIds, nodeIds, List.length_map, List.length_map, alike.length_eq]
  · rw [List.length_map] at insideFirst
    rw [List.getElem_map, counterpart, wellFormed.nodeIds_nodup.idxOf_getElem,
      List.getD_eq_getElem?_getD, List.getElem?_eq_getElem inside, Option.getD_some]

/-- Counterparts are compiled alike. -/
theorem nodes_eq :
    second.nodes.map (fun node => (node.id, node.instruction)) =
      first.nodes.map fun node => (counterpart first second node.id, node.instruction) := by
  have paired := congrArg₂ List.zip (alike.nodeIds_eq wellFormed) alike.instructions_eq
  rwa [nodeIds, nodeIds, List.map_map, List.zip_map', List.zip_map'] at paired

/-- First connections lead from counterparts to counterparts. -/
theorem leads_eq (wellFormedSecond : second.WellFormed) {id : NodeId} (live : first.Live id) :
    second.firstSuccessor? (counterpart first second id) =
      (first.firstSuccessor? id).map (counterpart first second) := by
  obtain ⟨position, there⟩ := List.mem_iff_getElem?.mp (wellFormed.mem_nodeIds_iff.mpr live)
  have thereSecond : second.nodeIds[position]? = some (counterpart first second id) := by
    rw [alike.nodeIds_eq wellFormed, List.getElem?_map, there, Option.map_some]
  rw [wellFormed.firstSuccessor?_eq there, wellFormedSecond.firstSuccessor?_eq thereSecond,
    alike.successors_eq, alike.nodeIds_eq wellFormed, Option.map_bind]
  refine congrArg _ (funext fun leads => ?_)
  rw [Function.comp_apply, Option.map_bind]
  exact congrArg _ (funext fun target => List.getElem?_map)

/-- Counterparts carry the first graph over to the second. -/
theorem renames (wellFormedSecond : second.WellFormed) :
    Renames first second (counterpart first second) where
  nodes_eq := by
    have same := congrArg (List.map fun pair => (pair.1, pair.2.1)) (alike.nodes_eq wellFormed)
    simpa only [List.map_map, Function.comp_def, Node.instruction] using same
  leads_eq id live := alike.leads_eq wellFormed wellFormedSecond live

/-- A node of the first graph has a counterpart in the second. -/
theorem exists_counterpart (wellFormedSecond : second.WellFormed) {id : NodeId} {node : Node}
    (held : first.node? id = some node) :
    ∃ other, second.node? (counterpart first second id) = some other ∧
      other.instruction = node.instruction := by
  obtain rfl := wellFormed.id_of_node? held
  have listed : (counterpart first second node.id, node.instruction) ∈
      second.nodes.map fun node => (node.id, node.instruction) := by
    rw [alike.nodes_eq wellFormed]
    exact List.mem_map_of_mem (wellFormed.mem_nodes_iff.mpr held)
  obtain ⟨other, member, same⟩ := List.mem_map.mp listed
  obtain ⟨id, instruction⟩ := Prod.mk.inj same
  exact ⟨other, id ▸ wellFormedSecond.mem_nodes_iff.mp member, instruction⟩

/-- The steps of alike graphs are the same. -/
theorem steps_eq (wellFormedSecond : second.WellFormed) :
    (second.compiledSteps second.linearize).map CompiledStep.step =
      (first.compiledSteps first.linearize).map CompiledStep.step := by
  have order := (alike.renames wellFormed wellFormedSecond).order_eq wellFormed wellFormedSecond
  apply List.ext_getElem?
  intro position
  rw [List.getElem?_map, List.getElem?_map,
    getElem?_compiledSteps wellFormed.live_of_mem_order,
    getElem?_compiledSteps wellFormedSecond.live_of_mem_order, order, List.getElem?_map,
    List.length_map]
  cases there : first.linearize.order[position]? with
  | none => rfl
  | some id =>
      obtain ⟨node, held⟩ := wellFormed.live_of_mem_order id (List.mem_of_getElem? there)
      obtain ⟨other, heldSecond, same⟩ :=
        alike.exists_counterpart wellFormed wellFormedSecond held
      rw [Option.map_some, Option.bind_some, Option.bind_some, held, heldSecond]
      exact congrArg some (Node.step_compiled_eq same _ position)

end

end Alike

/-- Alike graphs with a history have the same program, or neither has one. -/
theorem compile_eq_of_alike {first second : Graph} (reachable : first.Reachable)
    (reachableSecond : second.Reachable) (alike : Alike first second) (settings : Settings) :
    first.compile settings = second.compile settings := by
  have steps := alike.steps_eq reachable.wellFormed reachableSecond.wellFormed
  have filled : second.isEmpty = first.isEmpty := by
    simpa only [isEmpty, List.isEmpty_map] using congrArg List.isEmpty alike.instructions_eq
  rw [compile, compile, steps, filled]

/-- A history of a graph that is alike the one after `busyHistory`, with other handles, labels
and ports, and with connections beside the first that were added in between. -/
def freshHistory : List Edit := [
  .addNode { typeLabel := "wait", label := some "pause", position := ⟨4, 2⟩ },
  .addNode { typeLabel := " Start ", ports := some ⟨true, true⟩ },
  .addNode { typeLabel := "GOTO", document := some "{}" },
  .connect ⟨2⟩ ⟨0⟩,
  .connect ⟨2⟩ ⟨1⟩,
  .connect ⟨0⟩ ⟨0⟩,
  .connect ⟨1⟩ ⟨0⟩,
  .connect ⟨0⟩ ⟨2⟩]

theorem compile_after_freshHistory :
    (empty.run busyHistory).Reachable ∧ (empty.run freshHistory).Reachable ∧
      Alike (empty.run busyHistory) (empty.run freshHistory) ∧
      (empty.run busyHistory).nodeIds = [⟨2⟩, ⟨3⟩, ⟨5⟩] ∧
      (empty.run freshHistory).nodeIds = [⟨0⟩, ⟨1⟩, ⟨2⟩] ∧
      (empty.run busyHistory).connectionCount = 3 ∧
      (empty.run freshHistory).connectionCount = 5 ∧
      (empty.run busyHistory).compile {} = (empty.run freshHistory).compile {} := by
  have reachable : (empty.run busyHistory).Reachable := ⟨busyHistory, rfl⟩
  have reachableFresh : (empty.run freshHistory).Reachable := ⟨freshHistory, rfl⟩
  have alike : Alike (empty.run busyHistory) (empty.run freshHistory) :=
    ⟨by decide +kernel, by decide +kernel⟩
  exact ⟨reachable, reachableFresh, alike, by decide +kernel, by decide +kernel,
    by decide +kernel, by decide +kernel, compile_eq_of_alike reachable reachableFresh alike {}⟩

end Graph

end MotionSteps
