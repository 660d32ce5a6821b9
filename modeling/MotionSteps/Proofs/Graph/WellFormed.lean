import MotionSteps.Proofs.Graph.Arena
import MotionSteps.Proofs.Graph.History

/-!
# Well-formed graphs

Nodes and connections stand in the slots of their handles, and every connection runs
from a node with an output port to a node with an input port, both of them in the
graph. Each elementary change keeps a graph well formed, so every graph with a history
is. `representation_of_reachable` states this together with what callers rely on: a
handle leads to the node that carries it, and connections never lead to a node that is
gone.
-/

namespace MotionSteps.Graph

/-- What every graph with a history satisfies. -/
structure WellFormed (graph : Graph) : Prop where
  /-- A node carries the handle of its slot. -/
  node_slot : ∀ index node, graph.nodeArena.get? index = some node → node.id = ⟨index⟩
  /-- A connection carries the handle of its slot. -/
  connection_slot : ∀ index connection,
    graph.connectionArena.get? index = some connection → connection.id = ⟨index⟩
  /-- A connection leaves an output port of a node in the graph. -/
  source_output : ∀ connection ∈ graph.connections, graph.HasOutput connection.source
  /-- A connection enters an input port of a node in the graph. -/
  target_input : ∀ connection ∈ graph.connections, graph.HasInput connection.target

/-- A node with the handle is in the graph. -/
def Live (graph : Graph) (id : NodeId) : Prop :=
  ∃ node, graph.node? id = some node

theorem HasOutput.live {graph : Graph} {id : NodeId} (present : graph.HasOutput id) :
    graph.Live id := by
  obtain ⟨node, held, _⟩ := present
  exact ⟨node, held⟩

theorem HasInput.live {graph : Graph} {id : NodeId} (present : graph.HasInput id) :
    graph.Live id := by
  obtain ⟨node, held, _⟩ := present
  exact ⟨node, held⟩

/-! ## Nodes that keep their ports -/

/-- The node with a handle is still there afterwards, with the ports it had. -/
def KeepsPorts (before after : Graph) (id : NodeId) : Prop :=
  ∀ node, before.node? id = some node →
    ∃ kept, after.node? id = some kept ∧ kept.ports = node.ports

theorem KeepsPorts.of_node?_eq {before after : Graph} {id : NodeId}
    (same : after.node? id = before.node? id) : KeepsPorts before after id := by
  intro node held
  exact ⟨node, same.trans held, rfl⟩

theorem KeepsPorts.hasOutput {before after : Graph} {id : NodeId}
    (keeps : KeepsPorts before after id) (present : before.HasOutput id) :
    after.HasOutput id := by
  obtain ⟨node, held, output⟩ := present
  obtain ⟨kept, heldAfter, ports⟩ := keeps node held
  exact ⟨kept, heldAfter, by rw [ports, output]⟩

theorem KeepsPorts.hasInput {before after : Graph} {id : NodeId}
    (keeps : KeepsPorts before after id) (present : before.HasInput id) :
    after.HasInput id := by
  obtain ⟨node, held, input⟩ := present
  obtain ⟨kept, heldAfter, ports⟩ := keeps node held
  exact ⟨kept, heldAfter, by rw [ports, input]⟩

/-! ## Elementary changes -/

theorem wellFormed_empty : empty.WellFormed where
  node_slot index node held := by cases held
  connection_slot index connection held := by cases held
  source_output connection member := by cases member
  target_input connection member := by cases member

variable {graph : Graph}

namespace WellFormed

/-- A new node takes a slot that was never filled, so no other node is disturbed. -/
theorem addNode (wellFormed : graph.WellFormed) (draft : NodeDraft) :
    (graph.addNode draft).2.WellFormed := by
  have keeps : ∀ id, KeepsPorts graph (graph.addNode draft).2 id := by
    intro id node held
    have old : id.index ≠ graph.nodeArena.nextIndex :=
      Nat.ne_of_lt (Arena.lt_nextIndex_of_get? held)
    refine ⟨node, ?_, rfl⟩
    simp only [Graph.addNode, node?, Arena.get?_insert, if_neg old]
    exact held
  constructor
  · intro index node held
    simp only [Graph.addNode, Arena.get?_insert] at held
    split at held
    · next fresh =>
        cases held
        rw [fresh]
    · exact wellFormed.node_slot index node held
  · exact wellFormed.connection_slot
  · intro connection member
    exact (keeps _).hasOutput (wellFormed.source_output connection member)
  · intro connection member
    exact (keeps _).hasInput (wellFormed.target_input connection member)

/-- A node takes all its connections along, so the remaining ones keep their ends. -/
theorem eraseNode (wellFormed : graph.WellFormed) (id : NodeId) :
    WellFormed
      { nodeArena := graph.nodeArena.erase id.index
        connectionArena :=
          graph.connectionArena.filter fun connection => !connection.touches id } := by
  have keeps : ∀ other, other ≠ id →
      KeepsPorts graph
        { nodeArena := graph.nodeArena.erase id.index
          connectionArena :=
            graph.connectionArena.filter fun connection => !connection.touches id } other := by
    intro other different
    apply KeepsPorts.of_node?_eq
    have apart : id.index ≠ other.index := by
      intro same
      exact different (congrArg NodeId.mk same.symm)
    simp only [node?, Arena.get?_erase, if_neg apart]
  have remaining : ∀ connection,
      connection ∈ (graph.connectionArena.filter fun c => !c.touches id).toList →
        connection ∈ graph.connections ∧ connection.source ≠ id ∧ connection.target ≠ id := by
    intro connection member
    simpa [Connection.touches, connections, and_assoc] using member
  constructor
  · intro index node held
    simp only [Arena.get?_erase] at held
    split at held
    · cases held
    · exact wellFormed.node_slot index node held
  · intro index connection held
    simp only [Arena.get?_filter, Option.filter_eq_some_iff] at held
    exact wellFormed.connection_slot index connection held.1
  · intro connection member
    obtain ⟨old, source, -⟩ := remaining connection member
    exact (keeps _ source).hasOutput (wellFormed.source_output connection old)
  · intro connection member
    obtain ⟨old, -, target⟩ := remaining connection member
    exact (keeps _ target).hasInput (wellFormed.target_input connection old)

/-- A new connection has its ends checked. -/
theorem insertConnection (wellFormed : graph.WellFormed) {source target : NodeId}
    (leaves : graph.HasOutput source) (enters : graph.HasInput target) :
    WellFormed
      { graph with
        connectionArena :=
          graph.connectionArena.insert ⟨⟨graph.connectionArena.nextIndex⟩, source, target⟩ } := by
  have cases_member : ∀ connection,
      connection ∈ (graph.connectionArena.insert
          ⟨⟨graph.connectionArena.nextIndex⟩, source, target⟩).toList →
        connection ∈ graph.connections ∨
          connection = ⟨⟨graph.connectionArena.nextIndex⟩, source, target⟩ := by
    intro connection member
    simpa [connections] using member
  constructor
  · exact wellFormed.node_slot
  · intro index connection held
    simp only [Arena.get?_insert] at held
    split at held
    · next fresh =>
        cases held
        rw [fresh]
    · exact wellFormed.connection_slot index connection held
  · intro connection member
    rcases cases_member connection member with old | rfl
    · exact wellFormed.source_output connection old
    · exact leaves
  · intro connection member
    rcases cases_member connection member with old | rfl
    · exact wellFormed.target_input connection old
    · exact enters

/-- Taking out a connection asks nothing of the remaining ones. -/
theorem eraseConnection (wellFormed : graph.WellFormed) (id : ConnectionId) :
    WellFormed { graph with connectionArena := graph.connectionArena.erase id.index } := by
  have held_before : ∀ index connection,
      (graph.connectionArena.erase id.index).get? index = some connection →
        graph.connectionArena.get? index = some connection := by
    intro index connection held
    rw [Arena.get?_erase] at held
    split at held
    · cases held
    · exact held
  have remaining : ∀ connection,
      connection ∈ (graph.connectionArena.erase id.index).toList →
        connection ∈ graph.connections := by
    intro connection member
    obtain ⟨index, held⟩ := Arena.mem_toList_iff.mp member
    exact Arena.mem_toList_iff.mpr ⟨index, held_before index connection held⟩
  constructor
  · exact wellFormed.node_slot
  · intro index connection held
    exact wellFormed.connection_slot index connection (held_before index connection held)
  · intro connection member
    exact wellFormed.source_output connection (remaining connection member)
  · intro connection member
    exact wellFormed.target_input connection (remaining connection member)

/-- A node with a new document keeps its handle and its ports. -/
theorem setDocument (wellFormed : graph.WellFormed) (id : NodeId) (document : Option String) :
    WellFormed
      { graph with
        nodeArena := graph.nodeArena.modify id.index fun node =>
          { node with document, label := (document.bind labelIn?).getD node.label } } := by
  have keeps : ∀ other, KeepsPorts graph
      { graph with
        nodeArena := graph.nodeArena.modify id.index fun node =>
          { node with document, label := (document.bind labelIn?).getD node.label } } other := by
    intro other node held
    by_cases same : id.index = other.index
    · refine ⟨{ node with document, label := (document.bind labelIn?).getD node.label }, ?_, rfl⟩
      rw [node?] at held ⊢
      rw [Arena.get?_modify, if_pos same, held, Option.map_some]
    · refine ⟨node, ?_, rfl⟩
      rw [node?] at held ⊢
      rw [Arena.get?_modify, if_neg same, held]
  constructor
  · intro index node held
    simp only [Arena.get?_modify] at held
    split at held
    · obtain ⟨old, heldBefore, rfl⟩ := Option.map_eq_some_iff.mp held
      exact wellFormed.node_slot index old heldBefore
    · exact wellFormed.node_slot index node held
  · exact wellFormed.connection_slot
  · intro connection member
    exact (keeps _).hasOutput (wellFormed.source_output connection member)
  · intro connection member
    exact (keeps _).hasInput (wellFormed.target_input connection member)

/-- Nothing is left that could be out of place. -/
theorem clear (graph : Graph) : graph.clear.WellFormed := by
  constructor
  · intro index node held
    simp [Graph.clear] at held
  · intro index connection held
    simp [Graph.clear] at held
  · intro connection member
    simp [Graph.clear, connections] at member
  · intro connection member
    simp [Graph.clear, connections] at member

/-- Every elementary change keeps a graph well formed. -/
theorem change {after : Graph} (wellFormed : graph.WellFormed) (change : Change graph after) :
    after.WellFormed := by
  cases change with
  | insertNode draft => exact wellFormed.addNode draft
  | eraseNode held => exact wellFormed.eraseNode _
  | insertConnection leaves enters => exact wellFormed.insertConnection leaves enters
  | eraseConnection id => exact wellFormed.eraseConnection id
  | setDocument id document => exact wellFormed.setDocument id document
  | clear => exact WellFormed.clear graph

end WellFormed

/-- Every graph with a history is well formed. -/
theorem Reachable.wellFormed (reachable : graph.Reachable) : graph.WellFormed :=
  reachable.induction wellFormed_empty fun _ _ change before => before.change change

/-! ## What callers rely on -/

namespace WellFormed

/-- A handle leads to the node that carries it. -/
theorem id_of_node? (wellFormed : graph.WellFormed) {id : NodeId} {node : Node}
    (held : graph.node? id = some node) : node.id = id :=
  wellFormed.node_slot id.index node held

/-- A handle leads to the connection that carries it. -/
theorem id_of_connection? (wellFormed : graph.WellFormed) {id : ConnectionId}
    {connection : Connection} (held : graph.connection? id = some connection) :
    connection.id = id :=
  wellFormed.connection_slot id.index connection held

/-- A node knows its slot. -/
theorem node_placed (wellFormed : graph.WellFormed) (index : Nat) (node : Node)
    (held : graph.nodeArena.get? index = some node) : node.id.index = index := by
  rw [wellFormed.node_slot index node held]

/-- A connection knows its slot. -/
theorem connection_placed (wellFormed : graph.WellFormed) (index : Nat) (connection : Connection)
    (held : graph.connectionArena.get? index = some connection) : connection.id.index = index := by
  rw [wellFormed.connection_slot index connection held]

/-- The listed nodes are those that their handles lead to. -/
theorem mem_nodes_iff (wellFormed : graph.WellFormed) {node : Node} :
    node ∈ graph.nodes ↔ graph.node? node.id = some node :=
  Arena.mem_toList_iff_get? wellFormed.node_placed

/-- The listed connections are those that their handles lead to. -/
theorem mem_connections_iff (wellFormed : graph.WellFormed) {connection : Connection} :
    connection ∈ graph.connections ↔ graph.connection? connection.id = some connection :=
  Arena.mem_toList_iff_get? wellFormed.connection_placed

/-- The listed handles are those that lead to a node. -/
theorem mem_nodeIds_iff (wellFormed : graph.WellFormed) {id : NodeId} :
    id ∈ graph.nodeIds ↔ graph.Live id := by
  rw [nodeIds, List.mem_map]
  constructor
  · rintro ⟨node, member, rfl⟩
    exact ⟨node, wellFormed.mem_nodes_iff.mp member⟩
  · rintro ⟨node, held⟩
    have same := wellFormed.id_of_node? held
    refine ⟨node, wellFormed.mem_nodes_iff.mpr ?_, same⟩
    rw [same]
    exact held

/-- A handle in the graph is that of a listed node. -/
theorem exists_mem_nodes (wellFormed : graph.WellFormed) {id : NodeId} (live : graph.Live id) :
    ∃ node ∈ graph.nodes, node.id = id :=
  List.mem_map.mp (wellFormed.mem_nodeIds_iff.mpr live)

/-- A handle in the graph has a position in the list of handles. -/
theorem exists_position (wellFormed : graph.WellFormed) {id : NodeId} (live : graph.Live id) :
    ∃ position, graph.nodeIds.idxOf? id = some position ∧ graph.nodeIds[position]? = some id := by
  obtain ⟨position, found⟩ := Option.isSome_iff_exists.mp
    (List.isSome_idxOf?.mpr (wellFormed.mem_nodeIds_iff.mpr live))
  obtain ⟨inside, there, -⟩ := List.idxOf?_eq_some_iff.mp found
  exact ⟨position, found, (List.getElem?_eq_getElem inside).trans (congrArg some there)⟩

/-- Nodes are listed by their handles. -/
theorem nodeIds_increasing (wellFormed : graph.WellFormed) :
    graph.nodeIds.Pairwise fun first second => first.index < second.index := by
  rw [nodeIds, List.pairwise_map]
  exact List.pairwise_map.mp (Arena.slots_increasing wellFormed.node_placed)

/-- No handle is listed twice. -/
theorem nodeIds_nodup (wellFormed : graph.WellFormed) : graph.nodeIds.Nodup := by
  refine wellFormed.nodeIds_increasing.imp ?_
  rintro first second earlier rfl
  exact Nat.lt_irrefl _ earlier

/-- Both ends of a connection are in the graph. -/
theorem ends_live (wellFormed : graph.WellFormed) {connection : Connection}
    (member : connection ∈ graph.connections) :
    graph.Live connection.source ∧ graph.Live connection.target :=
  ⟨(wellFormed.source_output connection member).live,
    (wellFormed.target_input connection member).live⟩

/-- Connections lead to nodes of the graph. -/
theorem successor_live (wellFormed : graph.WellFormed) {id next : NodeId}
    (leads : next ∈ graph.successors id) : graph.Live next := by
  obtain ⟨connection, member, rfl⟩ := List.mem_map.mp leads
  exact (wellFormed.ends_live (List.mem_filter.mp member).1).2

/-- Connections leave nodes of the graph. -/
theorem source_live (wellFormed : graph.WellFormed) {id next : NodeId}
    (leads : next ∈ graph.successors id) : graph.Live id := by
  obtain ⟨connection, member, -⟩ := List.mem_map.mp leads
  obtain ⟨listed, leaves⟩ := List.mem_filter.mp member
  obtain rfl : connection.source = id := beq_iff_eq.mp leaves
  exact (wellFormed.ends_live listed).1

/-- A handle is below the number of nodes ever added. -/
theorem index_lt_nextIndex (wellFormed : graph.WellFormed) {node : Node}
    (member : node ∈ graph.nodes) : node.id.index < graph.nodeArena.nextIndex :=
  Arena.lt_nextIndex_of_get? (wellFormed.mem_nodes_iff.mp member)

end WellFormed

theorem mem_successors_of_firstSuccessor? {id next : NodeId}
    (first : graph.firstSuccessor? id = some next) : next ∈ graph.successors id :=
  List.mem_of_mem_head? first

/-- After every history the slots and the handles agree, connections run between ports
that nodes of the graph have, and whatever is listed for a node is in the graph. Handles
stay below the number of nodes and connections ever added, so a handle as wide as that
number loses nothing. -/
theorem representation_of_reachable (reachable : graph.Reachable) :
    graph.WellFormed ∧
      (∀ id node, graph.node? id = some node → node.id = id) ∧
      (∀ id connection, graph.connection? id = some connection → connection.id = id) ∧
      (∀ node ∈ graph.nodes, node.id.index < graph.nodeArena.nextIndex) ∧
      (∀ connection ∈ graph.connections,
        connection.id.index < graph.connectionArena.nextIndex) ∧
      (∀ id, ∀ connection ∈ graph.outgoing id,
        connection.source = id ∧ graph.Live id ∧ graph.Live connection.target) ∧
      (∀ id, ∀ connection ∈ graph.incoming id,
        connection.target = id ∧ graph.Live id ∧ graph.Live connection.source) ∧
      (∀ id next, graph.firstSuccessor? id = some next → graph.Live id ∧ graph.Live next) := by
  have wellFormed := reachable.wellFormed
  have outgoing_live : ∀ id, ∀ connection ∈ graph.outgoing id,
      connection.source = id ∧ graph.Live id ∧ graph.Live connection.target := by
    intro id connection member
    obtain ⟨listed, leaves⟩ := List.mem_filter.mp member
    obtain rfl : connection.source = id := by simpa using leaves
    exact ⟨rfl, wellFormed.ends_live listed⟩
  refine ⟨wellFormed, fun id node => wellFormed.id_of_node?,
    fun id connection => wellFormed.id_of_connection?, fun node => wellFormed.index_lt_nextIndex,
    ?_, outgoing_live, ?_, ?_⟩
  · intro connection member
    obtain ⟨index, held⟩ := Arena.mem_toList_iff.mp member
    rw [wellFormed.connection_slot index connection held]
    exact Arena.lt_nextIndex_of_get? held
  · intro id connection member
    obtain ⟨listed, enters⟩ := List.mem_filter.mp member
    obtain rfl : connection.target = id := by simpa using enters
    exact ⟨rfl, (wellFormed.ends_live listed).symm⟩
  · intro id next first
    obtain ⟨connection, member, rfl⟩ :=
      List.mem_map.mp (mem_successors_of_firstSuccessor? first)
    exact (outgoing_live id connection member).2

/-- A history with refused edits, a load over old contents, a node with ports of its own,
a connection from a node to itself and a node that is removed again. -/
def busyHistory : List Edit := [
  .addNode { typeLabel := "START" },
  .addNode { typeLabel := "WAIT" },
  .connect ⟨0⟩ ⟨1⟩,
  .connect ⟨1⟩ ⟨0⟩,
  .load
    { nodes := [⟨"WAIT", "w", 0, 0, none⟩, ⟨"start", "s", 0, 0, none⟩, ⟨"END", "e", 0, 0, none⟩]
      connections := [⟨1, 0⟩, ⟨0, 0⟩, ⟨0, 2⟩, ⟨2, 0⟩, ⟨0, 7⟩] },
  .addNode { typeLabel := "JUMP", ports := some ⟨false, true⟩ },
  .addConnection ⟨⟨5⟩, .output⟩ ⟨⟨2⟩, .input⟩,
  .setDocument ⟨5⟩ (some "{}"),
  .removeNode ⟨4⟩,
  .removeNode ⟨0⟩]

theorem representation_after_busyHistory :
    (empty.run busyHistory).Reachable ∧
      (empty.run busyHistory).nodeIds = [⟨2⟩, ⟨3⟩, ⟨5⟩] ∧
      (empty.run busyHistory).firstSuccessor? ⟨5⟩ = some ⟨2⟩ ∧
      (empty.run busyHistory).Live ⟨5⟩ ∧ (empty.run busyHistory).Live ⟨2⟩ := by
  have reachable : (empty.run busyHistory).Reachable := ⟨busyHistory, rfl⟩
  have first : (empty.run busyHistory).firstSuccessor? ⟨5⟩ = some ⟨2⟩ := by decide +kernel
  obtain ⟨-, -, -, -, -, -, -, successors⟩ := representation_of_reachable reachable
  exact ⟨reachable, by decide +kernel, first, successors ⟨5⟩ ⟨2⟩ first⟩

end MotionSteps.Graph
