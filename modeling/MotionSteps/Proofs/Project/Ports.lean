import MotionSteps.Proofs.Graph.Lists
import MotionSteps.Proofs.Project.RoundTrip

/-!
# The ports of what is saved and loaded back

A load derives the ports of a node from its kind, an addition from its label. The two differ
at the half nodes of a jump alone, so saving a graph and loading it back makes those whole and
keeps the ports of every other node. `ports_of_save_load` says so position by position, with
what it means for the connections that can be made afterwards. `half_node_becomes_whole` is a
half node that can be left after the load and could not before.
-/

namespace MotionSteps.Graph

/-- The output of one node may be connected to the input of another, or of the same. -/
def Accepts (graph : Graph) (source target : NodeId) : Prop :=
  ∃ id after, graph.connect source target = .ok (id, after)

/-- Position by position, the nodes of a graph have the ports of those of another, save that
every half node of a jump has become whole. -/
structure PortsCompletedIn (graph loaded : Graph) : Prop where
  length_eq : loaded.nodes.length = graph.nodes.length
  input_iff : ∀ (position : Nat) (node counterpart : Node),
    graph.nodes[position]? = some node → loaded.nodes[position]? = some counterpart →
    (counterpart.ports.input = true ↔ node.ports.input = true ∨ node.IsExport)
  output_iff : ∀ (position : Nat) (node counterpart : Node),
    graph.nodes[position]? = some node → loaded.nodes[position]? = some counterpart →
    (counterpart.ports.output = true ↔ node.ports.output = true ∨ node.IsImport)
  /-- Connections are accepted by the completed ports. -/
  accepts_iff : ∀ (first second : Nat) (source target newSource newTarget : Node),
    graph.nodes[first]? = some source → graph.nodes[second]? = some target →
    loaded.nodes[first]? = some newSource → loaded.nodes[second]? = some newTarget →
    (loaded.Accepts newSource.id newTarget.id ↔
      (source.ports.output = true ∨ source.IsImport) ∧
        (target.ports.input = true ∨ target.IsExport))
  /-- Where the ends are no half nodes, the same connections are accepted as before. -/
  accepts_same : ∀ (first second : Nat) (source target newSource newTarget : Node),
    graph.nodes[first]? = some source → graph.nodes[second]? = some target →
    loaded.nodes[first]? = some newSource → loaded.nodes[second]? = some newTarget →
    ¬ source.IsImport → ¬ target.IsExport →
    (loaded.Accepts newSource.id newTarget.id ↔ graph.Accepts source.id target.id)

variable {graph other : Graph}

/-- Two nodes can be connected by their ports. -/
theorem WellFormed.accepts_iff (wellFormed : graph.WellFormed) {source target : Node}
    (sourceMember : source ∈ graph.nodes) (targetMember : target ∈ graph.nodes) :
    graph.Accepts source.id target.id ↔
      source.ports.output = true ∧ target.ports.input = true := by
  have sourceHeld := wellFormed.mem_nodes_iff.mp sourceMember
  have targetHeld := wellFormed.mem_nodes_iff.mp targetMember
  simp only [Accepts, wellFormed.connect_eq_addConnection, addConnection_eq_ok_iff, HasOutput,
    HasInput, sourceHeld, targetHeld, Option.some.injEq, exists_eq_left']
  constructor
  · rintro ⟨id, after, -, -, output, input, -⟩
    exact ⟨output, input⟩
  · rintro ⟨output, input⟩
    exact ⟨_, _, trivial, trivial, output, input, rfl, rfl⟩

/-- What is loaded from a saved graph has the ports of the kinds of its nodes. -/
theorem ports_of_load_save {position : Nat} {node loaded : Node}
    (there : graph.nodes[position]? = some node)
    (loadedThere : (other.load graph.save).nodes[position]? = some loaded) :
    loaded.ports = node.kind.ports := by
  obtain ⟨inside, rfl⟩ := List.getElem?_eq_some_iff.mp there
  obtain ⟨loadedInside, rfl⟩ := List.getElem?_eq_some_iff.mp loadedThere
  simp only [nodes_load, nodes_save, List.getElem_zipWith, List.getElem_map, NodeDraft.node,
    Project.FileNode.draft, Option.getD_some, Node.kind]

/-- Saving a graph whose history gives no node ports of its own, and loading it into any graph,
makes the half nodes of jumps whole and keeps the ports of all other nodes. -/
theorem ports_of_save_load (reachable : graph.ReachableByImpliedPorts)
    (otherReachable : other.Reachable) :
    (other.load graph.save).Reachable ∧ graph.PortsCompletedIn (other.load graph.save) := by
  have wellFormed := reachable.reachable.wellFormed
  have loadedWellFormed := load_wellFormed other graph.save
  have input_iff : ∀ (position : Nat) (node counterpart : Node),
      graph.nodes[position]? = some node →
      (other.load graph.save).nodes[position]? = some counterpart →
      (counterpart.ports.input = true ↔ node.ports.input = true ∨ node.IsExport) := by
    intro position node counterpart there loadedThere
    rw [ports_of_load_save there loadedThere]
    exact (reachable.portsImplied node (List.mem_of_getElem? there)).input_iff
  have output_iff : ∀ (position : Nat) (node counterpart : Node),
      graph.nodes[position]? = some node →
      (other.load graph.save).nodes[position]? = some counterpart →
      (counterpart.ports.output = true ↔ node.ports.output = true ∨ node.IsImport) := by
    intro position node counterpart there loadedThere
    rw [ports_of_load_save there loadedThere]
    exact (reachable.portsImplied node (List.mem_of_getElem? there)).output_iff
  have accepts_iff : ∀ (first second : Nat) (source target newSource newTarget : Node),
      graph.nodes[first]? = some source → graph.nodes[second]? = some target →
      (other.load graph.save).nodes[first]? = some newSource →
      (other.load graph.save).nodes[second]? = some newTarget →
      ((other.load graph.save).Accepts newSource.id newTarget.id ↔
        (source.ports.output = true ∨ source.IsImport) ∧
          (target.ports.input = true ∨ target.IsExport)) := by
    intro first second source target newSource newTarget sourceThere targetThere newSourceThere
      newTargetThere
    rw [loadedWellFormed.accepts_iff (List.mem_of_getElem? newSourceThere)
      (List.mem_of_getElem? newTargetThere), output_iff first _ _ sourceThere newSourceThere,
      input_iff second _ _ targetThere newTargetThere]
  refine ⟨otherReachable.apply (.load graph.save), ?_, input_iff, output_iff, accepts_iff, ?_⟩
  · rw [nodes_load, nodes_save]
    simp
  · intro first second source target newSource newTarget sourceThere targetThere newSourceThere
      newTargetThere noImport noExport
    rw [accepts_iff first second _ _ _ _ sourceThere targetThere newSourceThere newTargetThere,
      wellFormed.accepts_iff (List.mem_of_getElem? sourceThere) (List.mem_of_getElem? targetThere)]
    simp only [noImport, noExport, or_false]

theorem ports_after_markerHistory :
    (∀ edit ∈ markerHistory, edit.ImpliesPorts) ∧ (empty.run busyHistory).Reachable ∧
      (empty.run markerHistory).nodes.map Node.ports =
        [⟨false, true⟩, ⟨false, true⟩, ⟨true, true⟩, ⟨true, false⟩] ∧
      ((empty.run busyHistory).load (empty.run markerHistory).save).nodes.map Node.ports =
        [⟨false, true⟩, ⟨true, true⟩, ⟨true, true⟩, ⟨true, true⟩] ∧
      (empty.run markerHistory).PortsCompletedIn
        ((empty.run busyHistory).load (empty.run markerHistory).save) := by
  have implied : ∀ edit ∈ markerHistory, edit.ImpliesPorts := by
    simp [markerHistory, Edit.ImpliesPorts]
  have otherReachable : (empty.run busyHistory).Reachable := ⟨busyHistory, rfl⟩
  have completed := ports_of_save_load ⟨markerHistory, implied, rfl⟩ otherReachable
  exact ⟨implied, otherReachable, by decide +kernel, by decide +kernel, completed.2⟩

/-- A history of one half node. -/
def halfHistory : List Edit := [
  .addNode { typeLabel := "JUMP IMPORT" }]

/-- A half node of a jump without an output gets one when it is saved and loaded back, and then
it may be connected to itself. -/
theorem half_node_becomes_whole :
    (empty.run halfHistory).ReachableByImpliedPorts ∧ empty.Reachable ∧
      (empty.run halfHistory).nodes.map Node.ports = [⟨true, false⟩] ∧
      (empty.load (empty.run halfHistory).save).nodes.map Node.ports = [⟨true, true⟩] ∧
      ¬ (empty.run halfHistory).Accepts ⟨0⟩ ⟨0⟩ ∧
      (empty.load (empty.run halfHistory).save).Accepts ⟨0⟩ ⟨0⟩ := by
  have implied : (empty.run halfHistory).ReachableByImpliedPorts :=
    ⟨halfHistory, by simp [halfHistory, Edit.ImpliesPorts], rfl⟩
  have atOnce : empty.Reachable := ⟨[], rfl⟩
  have refused : ((empty.run halfHistory).connect ⟨0⟩ ⟨0⟩).toOption.isSome = false := by
    decide +kernel
  have accepted : ((empty.load (empty.run halfHistory).save).connect ⟨0⟩ ⟨0⟩).toOption.isSome =
      true := by
    decide +kernel
  refine ⟨implied, atOnce, by decide +kernel, by decide +kernel, ?_, ?_⟩
  · rintro ⟨id, after, connected⟩
    rw [connected] at refused
    cases refused
  · cases connected : (empty.load (empty.run halfHistory).save).connect ⟨0⟩ ⟨0⟩ with
    | error refusal =>
        rw [connected] at accepted
        cases accepted
    | ok added => exact ⟨added.1, added.2, connected⟩

end MotionSteps.Graph
