import MotionSteps.Proofs.Graph.ImpliedPorts
import MotionSteps.Proofs.Graph.Retired

/-!
# Saving and loading back

The connections of a graph run between ports that its nodes have, and unless an edit gave
a node ports of its own, the kinds of these nodes have the ports too. So a load, which
derives the ports from the kinds, carries every connection of a saved graph.
`save_load_save_of_reachable` draws the conclusion: loading a saved graph and saving again
gives the same file, and nothing is left of what the graph held before the load.
-/

namespace MotionSteps

/-- What a node holds apart from its handle and its ports. -/
def Node.content (node : Node) : String × String × PlanePoint × Option String :=
  (node.typeLabel, node.label, node.position, node.document)

namespace Graph

variable {graph : Graph}

/-- A handle in the graph stands at some position in the list of handles, and the saved
node at that position has the kind of its node. -/
theorem WellFormed.exists_saved (wellFormed : graph.WellFormed) {id : NodeId} {node : Node}
    (held : graph.node? id = some node) :
    ∃ position, graph.nodeIds.idxOf? id = some position ∧
      ∃ saved, graph.save.node? (Int.ofNat position) = some saved ∧ saved.kind = node.kind := by
  obtain ⟨position, found, present⟩ := wellFormed.exists_position ⟨node, held⟩
  obtain ⟨inside, there⟩ := List.getElem?_eq_some_iff.mp present
  have insideNodes : position < graph.nodes.length := by simpa [nodeIds] using inside
  have same : graph.nodes[position] = node := by
    have idThere : graph.nodes[position].id = id := by simpa [nodeIds] using there
    have heldThere := wellFormed.mem_nodes_iff.mp (List.getElem_mem insideNodes)
    rw [idThere, held] at heldThere
    exact (Option.some.inj heldThere).symm
  refine ⟨position, found, ⟨node.typeLabel, node.label, node.position.x, node.position.y,
    node.document⟩, ?_, rfl⟩
  simp [Project.File.node?, nodes_save, insideNodes, same]

/-- Every connection is saved, and the file carries it. -/
theorem exists_carried (wellFormed : graph.WellFormed) (fit : graph.PortsFit)
    {connection : Connection} (member : connection ∈ graph.connections) :
    ∃ saved, savedEnds? graph.nodeIds connection.ends = some saved ∧
      graph.save.carries saved = true := by
  obtain ⟨source, sourceHeld, output⟩ := wellFormed.source_output connection member
  obtain ⟨target, targetHeld, input⟩ := wellFormed.target_input connection member
  obtain ⟨first, firstFound, firstSaved, firstThere, firstKind⟩ :=
    wellFormed.exists_saved sourceHeld
  obtain ⟨second, secondFound, secondSaved, secondThere, secondKind⟩ :=
    wellFormed.exists_saved targetHeld
  have listed : ∀ {id node}, graph.node? id = some node → node ∈ graph.nodes := by
    intro id node held
    exact Arena.mem_toList_iff.mpr ⟨id.index, held⟩
  refine ⟨⟨Int.ofNat first, Int.ofNat second⟩, ?_, ?_⟩
  · simp [savedEnds?, Connection.ends, firstFound, secondFound]
  · simp only [Project.File.carries, firstThere, secondThere, Option.any_some, firstKind,
      secondKind, Bool.and_eq_true]
    exact ⟨(fit source (listed sourceHeld)).output output,
      (fit target (listed targetHeld)).input input⟩

/-- A saved graph lists as many connections as the graph has. -/
theorem length_connections_save (wellFormed : graph.WellFormed) (fit : graph.PortsFit) :
    graph.save.connections.length = graph.connections.length := by
  rw [connections_save, List.length_filterMap_eq_countP, List.countP_eq_length.mpr, List.length_map]
  intro ends member
  obtain ⟨connection, listed, rfl⟩ := List.mem_map.mp member
  obtain ⟨saved, found, -⟩ := exists_carried wellFormed fit listed
  simp [found]

/-- The file of a saved graph carries all its connections. -/
theorem filter_carries_save (wellFormed : graph.WellFormed) (fit : graph.PortsFit) :
    graph.save.connections.filter graph.save.carries = graph.save.connections := by
  refine List.filter_eq_self.mpr fun saved member => ?_
  rw [connections_save, List.mem_filterMap] at member
  obtain ⟨ends, listed, found⟩ := member
  obtain ⟨connection, member, rfl⟩ := List.mem_map.mp listed
  obtain ⟨other, foundOther, carried⟩ := exists_carried wellFormed fit member
  obtain rfl : other = saved := Option.some.inj (foundOther.symm.trans found)
  exact carried

/-- Loading a saved graph into any graph and saving again gives the same file, node by
node and connection by connection. No connection is left out on the way, and every handle
that was in use before the load is retired. -/
theorem save_load_save_of_reachable {graph other : Graph}
    (reachable : graph.ReachableByImpliedPorts) (otherReachable : other.Reachable) :
    (other.load graph.save).Reachable ∧
      (other.load graph.save).save = graph.save ∧
      (other.load graph.save).nodes.map Node.content = graph.nodes.map Node.content ∧
      graph.save.connections.length = graph.connections.length ∧
      (other.load graph.save).connections.length = graph.connections.length ∧
      (∀ id node, other.node? id = some node → (other.load graph.save).node? id = none) ∧
      (∀ id connection, other.connection? id = some connection →
        (other.load graph.save).connection? id = none) := by
  have wellFormed := reachable.reachable.wellFormed
  have fit := reachable.portsFit
  have saved := length_connections_save wellFormed fit
  refine ⟨otherReachable.apply (.load graph.save), ?_, ?_, saved, ?_, ?_⟩
  · rw [save_load, filter_carries_save wellFormed fit]
  · rw [nodes_load, nodes_save]
    apply List.ext_getElem
    · simp
    · intro position inside _
      simp [NodeDraft.node, Project.FileNode.draft, Node.content]
  · have loaded := congrArg List.length (ends_load other graph.save)
    rw [filter_carries_save wellFormed fit] at loaded
    simpa [saved] using loaded
  · exact retired_of_changes_clear
      ((addNodes_changes _ _).trans (foldl_addTo_changes _ _ _))

/-- A history of half nodes of jumps, parallel connections, a connection from a node to
itself, a cycle, and nodes and connections that are removed again. -/
def markerHistory : List Edit := [
  .addNode { typeLabel := "WAIT" },
  .addNode { typeLabel := "start", label := some "Begin" },
  .addNode { typeLabel := "jump Export", position := ⟨2, 3⟩ },
  .addNode { typeLabel := "Motion", document := some "\x7b\"label\":\"m\"\x7d" },
  .addNode { typeLabel := " JUMP IMPORT " },
  .removeNode ⟨0⟩,
  .connect ⟨1⟩ ⟨3⟩,
  .connect ⟨2⟩ ⟨3⟩,
  .connect ⟨3⟩ ⟨3⟩,
  .connect ⟨3⟩ ⟨4⟩,
  .connect ⟨3⟩ ⟨4⟩,
  .removeConnection ⟨0⟩]

theorem save_load_save_after_markerHistory :
    (∀ edit ∈ markerHistory, edit.ImpliesPorts) ∧ (empty.run busyHistory).Reachable ∧
      (empty.run markerHistory).save.connections = [⟨1, 2⟩, ⟨2, 2⟩, ⟨2, 3⟩, ⟨2, 3⟩] ∧
      ((empty.run busyHistory).load (empty.run markerHistory).save).save =
        (empty.run markerHistory).save := by
  have implied : ∀ edit ∈ markerHistory, edit.ImpliesPorts := by
    simp [markerHistory, Edit.ImpliesPorts]
  have otherReachable : (empty.run busyHistory).Reachable := ⟨busyHistory, rfl⟩
  have roundTrip := save_load_save_of_reachable ⟨markerHistory, implied, rfl⟩ otherReachable
  exact ⟨implied, otherReachable, by decide +kernel, roundTrip.2.1⟩

end Graph

end MotionSteps
