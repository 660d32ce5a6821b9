import MotionSteps.Proofs.Graph.Arena
import MotionSteps.Proofs.Project.Loading

/-!
# A graph is two lists

Seen from outside, a graph is the list of its nodes and the list of its connections. The
slots behind them and the handles that are out of use do not show: what an operation answers
and what it leaves behind is said in terms of the two lists alone. `ActsOnLists` says it for
every operation, and `actsOnLists_of_reachable` shows it of every graph with a history. An
operation that fails leaves the graph as it was.
-/

namespace MotionSteps

namespace Graph

/-- A node in the list has the handle and an output port. -/
def ListsOutput (graph : Graph) (id : NodeId) : Prop :=
  ∃ node ∈ graph.nodes, node.id = id ∧ node.ports.output = true

/-- A node in the list has the handle and an input port. -/
def ListsInput (graph : Graph) (id : NodeId) : Prop :=
  ∃ node ∈ graph.nodes, node.id = id ∧ node.ports.input = true

/-- The handles of the connections, in the order in which they were added. -/
def connectionIds (graph : Graph) : List ConnectionId :=
  graph.connections.map Connection.id

/-- An edit fails: it finds nothing to remove or is refused. -/
def Fails (graph : Graph) : Edit → Prop
  | .removeNode id => (graph.removeNode id).1 = none
  | .addConnection source target => ∃ refusal, graph.addConnection source target = .error refusal
  | .connect source target => ∃ refusal, graph.connect source target = .error refusal
  | .removeConnection id => (graph.removeConnection id).1 = none
  | .setDocument id document => ∃ refusal, graph.setDocument id document = .error refusal
  | .addNode _ | .clear | .load _ => False

/-- What every operation answers, and what it makes of the nodes and connections. -/
structure ActsOnLists (graph : Graph) : Prop where
  nodeIds_nodup : graph.nodeIds.Nodup
  connectionIds_nodup : graph.connectionIds.Nodup
  /-- A look-up finds what is listed. -/
  node?_eq : ∀ id, graph.node? id = graph.nodes.find? fun node => node.id = id
  connection?_eq : ∀ id,
    graph.connection? id = graph.connections.find? fun connection => connection.id = id
  /-- A node is added behind the others, under a handle that none of them has. -/
  addNode : ∀ draft id after, graph.addNode draft = (id, after) →
    id ∉ graph.nodeIds ∧ after.nodes = graph.nodes ++ [draft.node id] ∧
      after.connections = graph.connections
  /-- A node goes together with the connections that have it as an end. -/
  removeNode : ∀ node ∈ graph.nodes, ∃ after, graph.removeNode node.id = (some node, after) ∧
    after.nodes = graph.nodes.filter (fun other => other.id ≠ node.id) ∧
    after.connections = graph.connections.filter fun connection =>
      connection.source ≠ node.id ∧ connection.target ≠ node.id
  removeNode_absent : ∀ id, id ∉ graph.nodeIds → graph.removeNode id = (none, graph)
  /-- A connection goes alone. -/
  removeConnection : ∀ connection ∈ graph.connections, ∃ after,
    graph.removeConnection connection.id = (some connection, after) ∧
    after.nodes = graph.nodes ∧
    after.connections = graph.connections.filter fun other => other.id ≠ connection.id
  removeConnection_absent : ∀ id, id ∉ graph.connectionIds →
    graph.removeConnection id = (none, graph)
  /-- Nodes are connected by their ports, with the same handle or the same refusal. -/
  connect_eq : ∀ source target,
    graph.connect source target = graph.addConnection ⟨source, .output⟩ ⟨target, .input⟩
  /-- A connection is added when it runs from an output to an input that listed nodes have. -/
  addConnection_iff : ∀ source target,
    (∃ id after, graph.addConnection source target = .ok (id, after)) ↔
      source.side = .output ∧ target.side = .input ∧
        graph.ListsOutput source.node ∧ graph.ListsInput target.node
  /-- It is added behind the others, under a handle that none of them has. -/
  addConnection : ∀ source target id after, graph.addConnection source target = .ok (id, after) →
    id ∉ graph.connectionIds ∧ after.nodes = graph.nodes ∧
      after.connections = graph.connections ++ [⟨id, source.node, target.node⟩]
  /-- A listed node is given a document, and the label in it if there is one. -/
  setDocument_iff : ∀ id document,
    (∃ after, graph.setDocument id document = .ok after) ↔ id ∈ graph.nodeIds
  setDocument : ∀ id document after, graph.setDocument id document = .ok after →
    after.nodes = graph.nodes.map (fun node =>
      if node.id = id then
        { node with document, label := (document.bind labelIn?).getD node.label }
      else node) ∧
    after.connections = graph.connections
  clear : graph.clear.nodes = [] ∧ graph.clear.connections = []
  /-- Whatever fails changes nothing. -/
  unchanged : ∀ edit, graph.Fails edit → graph.apply edit = graph
  nodeCount_eq : graph.nodeCount = graph.nodes.length
  connectionCount_eq : graph.connectionCount = graph.connections.length
  isEmpty_iff : graph.isEmpty = true ↔ graph.nodeCount = 0
  outgoing_eq : ∀ id, graph.outgoing id = graph.connections.filter fun c => c.source = id
  incoming_eq : ∀ id, graph.incoming id = graph.connections.filter fun c => c.target = id

variable {graph : Graph}

namespace WellFormed

/-! ## Handles and slots -/

/-- A node is looked up in the list of nodes. -/
theorem node?_eq_find? (wellFormed : graph.WellFormed) (id : NodeId) :
    graph.node? id = graph.nodes.find? fun node => node.id = id := by
  rw [node?, Arena.get?_eq_find? wellFormed.node_placed]
  refine congrArg (List.find? · graph.nodes) (funext fun node => ?_)
  rw [Bool.eq_iff_iff, beq_iff_eq, decide_eq_true_iff, NodeId.ext_iff]

/-- A connection is looked up in the list of connections. -/
theorem connection?_eq_find? (wellFormed : graph.WellFormed) (id : ConnectionId) :
    graph.connection? id = graph.connections.find? fun connection => connection.id = id := by
  rw [connection?, Arena.get?_eq_find? wellFormed.connection_placed]
  refine congrArg (List.find? · graph.connections) (funext fun connection => ?_)
  rw [Bool.eq_iff_iff, beq_iff_eq, decide_eq_true_iff, ConnectionId.ext_iff]

/-- No handle of a connection is listed twice. -/
theorem connectionIds_nodup (wellFormed : graph.WellFormed) : graph.connectionIds.Nodup := by
  have distinct := Arena.slots_nodup wellFormed.connection_placed
  refine List.Nodup.of_map ConnectionId.index ?_
  rwa [connectionIds, List.map_map]

/-- A handle that no node has leads to none. -/
theorem node?_eq_none (wellFormed : graph.WellFormed) {id : NodeId}
    (absent : id ∉ graph.nodeIds) : graph.node? id = none := by
  rw [wellFormed.mem_nodeIds_iff] at absent
  exact Option.eq_none_iff_forall_ne_some.mpr fun node held => absent ⟨node, held⟩

/-- A handle that no connection has leads to none. -/
theorem connection?_eq_none (wellFormed : graph.WellFormed) {id : ConnectionId}
    (absent : id ∉ graph.connectionIds) : graph.connection? id = none := by
  refine Option.eq_none_iff_forall_ne_some.mpr fun connection held => absent ?_
  obtain rfl := wellFormed.id_of_connection? held
  exact List.mem_map_of_mem (wellFormed.mem_connections_iff.mpr held)

/-- What is asked of the node with a handle may be asked of the listed nodes. -/
theorem exists_node?_iff (wellFormed : graph.WellFormed) {id : NodeId} {holds : Node → Prop} :
    (∃ node, graph.node? id = some node ∧ holds node) ↔
      ∃ node ∈ graph.nodes, node.id = id ∧ holds node := by
  constructor
  · rintro ⟨node, held, asked⟩
    obtain rfl := wellFormed.id_of_node? held
    exact ⟨node, wellFormed.mem_nodes_iff.mpr held, rfl, asked⟩
  · rintro ⟨node, member, rfl, asked⟩
    exact ⟨node, wellFormed.mem_nodes_iff.mp member, asked⟩

/-! ## Operations -/

/-- The next handle of a node is that of none. -/
theorem nextNode_not_mem (wellFormed : graph.WellFormed) :
    ⟨graph.nodeArena.nextIndex⟩ ∉ graph.nodeIds := by
  rw [wellFormed.mem_nodeIds_iff]
  rintro ⟨node, held⟩
  exact Nat.lt_irrefl _ (Arena.lt_nextIndex_of_get? held)

/-- The next handle of a connection is that of none. -/
theorem nextConnection_not_mem (wellFormed : graph.WellFormed) :
    ⟨graph.connectionArena.nextIndex⟩ ∉ graph.connectionIds := by
  intro member
  obtain ⟨connection, listed, same⟩ := List.mem_map.mp member
  have held := wellFormed.mem_connections_iff.mp listed
  rw [same] at held
  exact Nat.lt_irrefl _ (Arena.lt_nextIndex_of_get? held)

theorem nodes_erase (wellFormed : graph.WellFormed) (id : NodeId) :
    (graph.nodeArena.erase id.index).toList = graph.nodes.filter fun node => node.id ≠ id := by
  rw [Arena.erase_eq_filter wellFormed.node_placed, Arena.toList_filter]
  refine List.filter_congr fun node _ => ?_
  rw [Bool.eq_iff_iff, bne_iff_ne, decide_eq_true_iff, Ne, Ne, NodeId.ext_iff]

theorem connections_erase (wellFormed : graph.WellFormed) (id : ConnectionId) :
    (graph.connectionArena.erase id.index).toList =
      graph.connections.filter fun connection => connection.id ≠ id := by
  rw [Arena.erase_eq_filter wellFormed.connection_placed, Arena.toList_filter]
  refine List.filter_congr fun connection _ => ?_
  rw [Bool.eq_iff_iff, bne_iff_ne, decide_eq_true_iff, Ne, Ne, ConnectionId.ext_iff]

/-- A new document changes one node and keeps the order. -/
theorem nodes_modify (wellFormed : graph.WellFormed) (id : NodeId) (change : Node → Node) :
    (graph.nodeArena.modify id.index change).toList =
      graph.nodes.map fun node => if node.id = id then change node else node := by
  rw [Arena.modify_eq_map wellFormed.node_placed, Arena.toList_map]
  simp only [NodeId.ext_iff, nodes]

/-- Both ways to connect check the same in the same order: the handles under which they look
up the nodes are those that the nodes carry. -/
theorem connect_eq_addConnection (wellFormed : graph.WellFormed) (source target : NodeId) :
    graph.connect source target = graph.addConnection ⟨source, .output⟩ ⟨target, .input⟩ := by
  simp only [connect, addConnection]
  cases leaving : graph.requireOutput source with
  | error refusal => rfl
  | ok first =>
      cases entering : graph.requireInput target with
      | error refusal => rfl
      | ok second =>
          obtain ⟨node, held, output, rfl⟩ := requireOutput_eq_ok_iff.mp leaving
          obtain ⟨other, heldToo, input, rfl⟩ := requireInput_eq_ok_iff.mp entering
          obtain rfl := wellFormed.id_of_node? held
          obtain rfl := wellFormed.id_of_node? heldToo
          simp only [bind, Except.bind, requireSide, if_true, leaving, entering]

end WellFormed

/-- The connections without the node as an end stay, in their order. -/
theorem connections_untouched (graph : Graph) (id : NodeId) :
    (graph.connectionArena.filter fun connection => !connection.touches id).toList =
      graph.connections.filter fun connection =>
        connection.source ≠ id ∧ connection.target ≠ id := by
  rw [connections, Arena.toList_filter]
  refine List.filter_congr fun connection _ => ?_
  rw [Bool.eq_iff_iff]
  simp [Connection.touches]

theorem removeNode_of_held {id : NodeId} {node : Node} (held : graph.node? id = some node) :
    graph.removeNode id =
      (some node,
        { nodeArena := graph.nodeArena.erase id.index
          connectionArena :=
            graph.connectionArena.filter fun connection => !connection.touches id }) := by
  rw [removeNode, held]

theorem removeNode_of_absent {id : NodeId} (absent : graph.node? id = none) :
    graph.removeNode id = (none, graph) := by
  rw [removeNode, absent]

theorem removeConnection_of_held {id : ConnectionId} {connection : Connection}
    (held : graph.connection? id = some connection) :
    graph.removeConnection id =
      (some connection,
        { graph with connectionArena := graph.connectionArena.erase id.index }) := by
  rw [removeConnection, held]

theorem removeConnection_of_absent {id : ConnectionId} (absent : graph.connection? id = none) :
    graph.removeConnection id = (none, graph) := by
  rw [removeConnection, absent]

/-- A document is replaced exactly when the handle is that of a node. -/
theorem setDocument_eq_ok_iff {id : NodeId} {document : Option String} {after : Graph} :
    graph.setDocument id document = .ok after ↔
      graph.Live id ∧
        after =
          { graph with
            nodeArena := graph.nodeArena.modify id.index fun node =>
              { node with document, label := (document.bind labelIn?).getD node.label } } := by
  simp only [setDocument, bind_eq_ok_iff, require_eq_ok_iff]
  constructor
  · rintro ⟨node, held, changed⟩
    cases changed
    exact ⟨⟨node, held⟩, rfl⟩
  · rintro ⟨⟨node, held⟩, rfl⟩
    exact ⟨node, held, rfl⟩

/-- An edit that fails changes nothing. -/
theorem apply_of_fails {edit : Edit} (fails : graph.Fails edit) : graph.apply edit = graph := by
  cases edit with
  | addNode draft => exact absurd fails id
  | removeNode id =>
      cases held : graph.node? id with
      | none => rw [apply, removeNode_of_absent held]
      | some node =>
          rw [Fails, removeNode_of_held held] at fails
          cases fails
  | addConnection source target =>
      obtain ⟨refusal, refused⟩ := fails
      rw [apply, refused]
      rfl
  | connect source target =>
      obtain ⟨refusal, refused⟩ := fails
      rw [apply, refused]
      rfl
  | removeConnection id =>
      cases held : graph.connection? id with
      | none => rw [apply, removeConnection_of_absent held]
      | some connection =>
          rw [Fails, removeConnection_of_held held] at fails
          cases fails
  | setDocument id document =>
      obtain ⟨refusal, refused⟩ := fails
      simp only [apply, refused]
  | clear => exact absurd fails id
  | load file => exact absurd fails id

namespace WellFormed

/-- A connection is added when it runs from an output to an input that listed nodes have. -/
theorem exists_addConnection_iff (wellFormed : graph.WellFormed) {source target : Port} :
    (∃ id after, graph.addConnection source target = .ok (id, after)) ↔
      source.side = .output ∧ target.side = .input ∧
        graph.ListsOutput source.node ∧ graph.ListsInput target.node := by
  simp only [addConnection_eq_ok_iff, HasOutput, HasInput, wellFormed.exists_node?_iff]
  constructor
  · rintro ⟨id, after, leaving, entering, output, input, -⟩
    exact ⟨leaving, entering, output, input⟩
  · rintro ⟨leaving, entering, output, input⟩
    exact ⟨_, _, leaving, entering, output, input, rfl, rfl⟩

/-- A document is replaced when the handle is listed. -/
theorem exists_setDocument_iff (wellFormed : graph.WellFormed) {id : NodeId}
    {document : Option String} :
    (∃ after, graph.setDocument id document = .ok after) ↔ id ∈ graph.nodeIds := by
  simp only [setDocument_eq_ok_iff, wellFormed.mem_nodeIds_iff]
  constructor
  · rintro ⟨after, live, -⟩
    exact live
  · intro live
    exact ⟨_, live, rfl⟩

end WellFormed

/-- Every graph with a history acts on its two lists. -/
theorem actsOnLists_of_reachable (reachable : graph.Reachable) : graph.ActsOnLists := by
  have wellFormed := reachable.wellFormed
  constructor
  case nodeIds_nodup => exact wellFormed.nodeIds_nodup
  case connectionIds_nodup => exact wellFormed.connectionIds_nodup
  case node?_eq => exact wellFormed.node?_eq_find?
  case connection?_eq => exact wellFormed.connection?_eq_find?
  case addNode =>
    rintro draft id after added
    obtain ⟨rfl, rfl⟩ := Prod.mk.inj ((addNode_eq graph draft).symm.trans added)
    exact ⟨wellFormed.nextNode_not_mem, Arena.toList_insert _ _, rfl⟩
  case removeNode =>
    intro node member
    have held := wellFormed.mem_nodes_iff.mp member
    exact ⟨_, removeNode_of_held held, wellFormed.nodes_erase node.id,
      connections_untouched graph node.id⟩
  case removeNode_absent =>
    exact fun id absent => removeNode_of_absent (wellFormed.node?_eq_none absent)
  case removeConnection =>
    intro connection member
    have held := wellFormed.mem_connections_iff.mp member
    exact ⟨_, removeConnection_of_held held, rfl, wellFormed.connections_erase connection.id⟩
  case removeConnection_absent =>
    exact fun id absent => removeConnection_of_absent (wellFormed.connection?_eq_none absent)
  case connect_eq => exact wellFormed.connect_eq_addConnection
  case addConnection_iff => exact fun source target => wellFormed.exists_addConnection_iff
  case addConnection =>
    intro source target id after added
    obtain ⟨-, -, -, -, rfl, rfl⟩ := addConnection_eq_ok_iff.mp added
    exact ⟨wellFormed.nextConnection_not_mem, rfl, Arena.toList_insert _ _⟩
  case setDocument_iff => exact fun id document => wellFormed.exists_setDocument_iff
  case setDocument =>
    intro id document after changed
    obtain ⟨-, rfl⟩ := setDocument_eq_ok_iff.mp changed
    exact ⟨wellFormed.nodes_modify id _, rfl⟩
  case clear => exact ⟨Arena.toList_clear _, Arena.toList_clear _⟩
  case unchanged => exact fun edit => apply_of_fails
  case nodeCount_eq => rfl
  case connectionCount_eq => rfl
  case isEmpty_iff => rw [isEmpty, nodeCount, List.isEmpty_iff, List.length_eq_zero_iff]
  case outgoing_eq => exact fun id => rfl
  case incoming_eq => exact fun id => rfl

theorem actsOnLists_after_busyHistory :
    (empty.run busyHistory).Reachable ∧ (empty.run busyHistory).ActsOnLists ∧
      (empty.run busyHistory).connections.map Connection.ends =
        [(⟨3⟩, ⟨2⟩), (⟨2⟩, ⟨2⟩), (⟨5⟩, ⟨2⟩)] ∧
      ∃ node after, (empty.run busyHistory).removeNode ⟨2⟩ = (some node, after) ∧
        after.nodeIds = [⟨3⟩, ⟨5⟩] ∧ after.connections = [] := by
  have reachable : (empty.run busyHistory).Reachable := ⟨busyHistory, rfl⟩
  have acts := actsOnLists_of_reachable reachable
  have listed : ∃ node ∈ (empty.run busyHistory).nodes, node.id = ⟨2⟩ := by decide +kernel
  obtain ⟨node, member, same⟩ := listed
  obtain ⟨after, removed, nodes, connections⟩ := acts.removeNode node member
  rw [same] at removed nodes connections
  refine ⟨reachable, acts, by decide +kernel, node, after, removed, ?_, ?_⟩
  · rw [nodeIds, nodes]
    decide +kernel
  · rw [connections]
    decide +kernel

end Graph

end MotionSteps
