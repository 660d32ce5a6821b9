import MotionSteps.Proofs.Graph.Lists
import MotionSteps.Proofs.Graph.Retired

/-!
# Handles over a whole run

A run hands out the handles of the nodes and of the connections that it creates in a row from
zero on, whatever is removed, cleared or loaded meanwhile. So no handle is handed out twice,
and what the graph holds is listed in the order of its creation. Once the node or connection
of a handle is gone, nothing brings it back: `NodeGone` and `ConnectionGone` say how every
operation answers to such a handle. `handles_of_run` states this of every run.
-/

namespace MotionSteps

namespace Arena

variable {α : Type}

/-- On the way from one arena to another, indices are handed out in a row. -/
structure HandsOut (before after : Arena α) (indices : List Nat) : Prop where
  indices_eq : indices = List.range' before.nextIndex indices.length
  nextIndex_eq : after.nextIndex = before.nextIndex + indices.length

namespace HandsOut

variable {before middle after : Arena α}

theorem nothing (same : after.nextIndex = before.nextIndex) : before.HandsOut after [] :=
  ⟨rfl, same⟩

theorem insert (arena : Arena α) (item : α) :
    arena.HandsOut (arena.insert item) [arena.nextIndex] :=
  ⟨rfl, nextIndex_insert arena item⟩

/-- A second row goes on where the first one ended. -/
theorem append {earlier later : List Nat} (first : before.HandsOut middle earlier)
    (second : middle.HandsOut after later) : before.HandsOut after (earlier ++ later) where
  indices_eq := by
    rw [List.length_append, ← List.range'_append_1, ← first.indices_eq, ← first.nextIndex_eq,
      ← second.indices_eq]
  nextIndex_eq := by
    rw [second.nextIndex_eq, first.nextIndex_eq, List.length_append, Nat.add_assoc]

/-- From the empty arena on, every index handed out is there. -/
theorem eq_range {indices : List Nat} (row : empty.HandsOut after indices) :
    indices = List.range after.nextIndex := by
  rw [row.nextIndex_eq, List.range_eq_range', show (empty : Arena α).nextIndex = 0 from rfl,
    Nat.zero_add]
  exact row.indices_eq

end HandsOut

end Arena

/-- An edit asks for a node by its handle. -/
def Edit.Names (id : NodeId) : Edit → Prop
  | .removeNode other | .setDocument other _ => other = id
  | .addConnection source target => source.node = id ∨ target.node = id
  | .connect source target => source = id ∨ target = id
  | .addNode _ | .removeConnection _ | .clear | .load _ => False

/-- An edit takes away whatever node has the handle. -/
def Edit.TakesNode (id : NodeId) : Edit → Prop
  | .removeNode other => other = id
  | .clear | .load _ => True
  | .addNode _ | .addConnection .. | .connect .. | .removeConnection _ | .setDocument .. => False

/-- An edit takes away a connection, possibly together with a node. -/
def Edit.TakesConnection (connection : Connection) : Edit → Prop
  | .removeNode id => connection.touches id = true
  | .removeConnection id => connection.id = id
  | .clear | .load _ => True
  | .addNode _ | .addConnection .. | .connect .. | .setDocument .. => False

namespace Graph

/-- The handle that an attempt to connect hands out, if it succeeds. -/
def handedOut : Except GraphError (ConnectionId × Graph) → List ConnectionId
  | .ok (id, _) => [id]
  | .error _ => []

/-- The handles that the connections of a project file get, whose nodes got `ids`. -/
def newFileConnections (ids : List NodeId) (graph : Graph) :
    List Project.FileConnection → List ConnectionId
  | [] => []
  | connection :: connections =>
      (match Project.nodeAt? ids connection.source, Project.nodeAt? ids connection.target with
        | some source, some target => handedOut (graph.connect source target)
        | _, _ => []) ++
        (connection.addTo ids graph).newFileConnections ids connections

/-- The handles of the nodes that an edit creates, in the order of their creation. -/
def newNodes (graph : Graph) : Edit → List NodeId
  | .addNode draft => [(graph.addNode draft).1]
  | .load file => (graph.clear.addNodes (file.nodes.map Project.FileNode.draft)).1
  | _ => []

/-- The handles of the connections that an edit creates, in the order of their creation. -/
def newConnections (graph : Graph) : Edit → List ConnectionId
  | .addConnection source target => handedOut (graph.addConnection source target)
  | .connect source target => handedOut (graph.connect source target)
  | .load file =>
      let (ids, filled) := graph.clear.addNodes (file.nodes.map Project.FileNode.draft)
      filled.newFileConnections ids file.connections
  | _ => []

/-- The handles of all nodes that a run creates. -/
def createdNodes (graph : Graph) : List Edit → List NodeId
  | [] => []
  | edit :: edits => graph.newNodes edit ++ (graph.apply edit).createdNodes edits

/-- The handles of all connections that a run creates. -/
def createdConnections (graph : Graph) : List Edit → List ConnectionId
  | [] => []
  | edit :: edits => graph.newConnections edit ++ (graph.apply edit).createdConnections edits

/-- How a graph answers to the handle of a node that is gone. Nothing is found and nothing is
changed. Whatever names the handle is refused because of it, unless an earlier check fails. -/
structure NodeGone (graph : Graph) (id : NodeId) : Prop where
  node?_eq : graph.node? id = none
  removeNode_eq : graph.removeNode id = (none, graph)
  setDocument_eq : ∀ document, graph.setDocument id document = .error (.unknownNode id)
  connect_from : ∀ target, graph.connect id target = .error (.unknownNode id)
  /-- The output of the source is asked for first. -/
  connect_to : ∀ source, ∃ refusal, graph.connect source id = .error refusal ∧
    (refusal = .unknownNode id ∨ graph.requireOutput source = .error refusal)
  /-- The sides of both ports are checked first. -/
  addConnection_from : ∀ source target, source.node = id →
    ∃ refusal, graph.addConnection source target = .error refusal ∧
      (refusal = .unknownNode id ∨ requireSide source .output = .error refusal ∨
        requireSide target .input = .error refusal)
  addConnection_to : ∀ source target, target.node = id →
    ∃ refusal, graph.addConnection source target = .error refusal ∧
      (refusal = .unknownNode id ∨ requireSide source .output = .error refusal ∨
        requireSide target .input = .error refusal ∨
        graph.requireOutput source.node = .error refusal)
  unchanged : ∀ edit : Edit, edit.Names id → graph.apply edit = graph

/-- How a graph answers to the handle of a connection that is gone. -/
structure ConnectionGone (graph : Graph) (id : ConnectionId) : Prop where
  connection?_eq : graph.connection? id = none
  removeConnection_eq : graph.removeConnection id = (none, graph)

variable {graph : Graph}

/-! ## Handles are handed out in a row -/

theorem handsOut_afterAttempt_addConnection (graph : Graph) (source target : Port) :
    graph.connectionArena.HandsOut
      (graph.afterAttempt (graph.addConnection source target)).connectionArena
      ((handedOut (graph.addConnection source target)).map ConnectionId.index) := by
  cases attempt : graph.addConnection source target with
  | error refusal => exact .nothing rfl
  | ok added =>
      obtain ⟨id, extended⟩ := added
      obtain ⟨-, -, -, -, rfl, rfl⟩ := addConnection_eq_ok_iff.mp attempt
      exact .insert _ _

theorem handsOut_afterAttempt_connect (graph : Graph) (source target : NodeId) :
    graph.connectionArena.HandsOut
      (graph.afterAttempt (graph.connect source target)).connectionArena
      ((handedOut (graph.connect source target)).map ConnectionId.index) := by
  cases attempt : graph.connect source target with
  | error refusal => exact .nothing rfl
  | ok added =>
      obtain ⟨id, extended⟩ := added
      obtain ⟨leaving, entering, -, -, inserted⟩ := connect_eq_ok_iff.mp attempt
      have row := handsOut_afterAttempt_addConnection graph leaving entering
      rw [inserted] at row
      exact row

theorem handsOut_addNodes (graph : Graph) (drafts : List NodeDraft) :
    graph.nodeArena.HandsOut (graph.addNodes drafts).2.nodeArena
      ((graph.addNodes drafts).1.map NodeId.index) := by
  induction drafts generalizing graph with
  | nil => exact .nothing rfl
  | cons draft drafts inductionHypothesis =>
      exact (Arena.HandsOut.insert _ _).append (inductionHypothesis (graph.addNode draft).2)

theorem handsOut_newFileConnections (ids : List NodeId) (graph : Graph)
    (connections : List Project.FileConnection) :
    graph.connectionArena.HandsOut
      (connections.foldl (Project.FileConnection.addTo ids) graph).connectionArena
      ((graph.newFileConnections ids connections).map ConnectionId.index) := by
  induction connections generalizing graph with
  | nil => exact .nothing rfl
  | cons connection connections inductionHypothesis =>
      rw [newFileConnections, List.map_append, List.foldl_cons]
      refine .append ?_ (inductionHypothesis (connection.addTo ids graph))
      rw [addTo_eq]
      cases Project.nodeAt? ids connection.source with
      | none => exact .nothing rfl
      | some source =>
          cases Project.nodeAt? ids connection.target with
          | none => exact .nothing rfl
          | some target => exact handsOut_afterAttempt_connect graph source target

/-- An edit hands out handles of nodes in a row. -/
theorem handsOut_newNodes (graph : Graph) (edit : Edit) :
    graph.nodeArena.HandsOut (graph.apply edit).nodeArena
      ((graph.newNodes edit).map NodeId.index) := by
  cases edit with
  | addNode draft => exact .insert _ _
  | removeNode id =>
      refine .nothing ?_
      rw [apply]
      cases held : graph.node? id with
      | none => rw [removeNode_of_absent held]
      | some node =>
          rw [removeNode_of_held held]
          exact Arena.nextIndex_erase _ _
  | addConnection source target =>
      exact .nothing (congrArg Arena.nextIndex (nodeArena_afterAttempt_addConnection graph _ _))
  | connect source target =>
      exact .nothing (congrArg Arena.nextIndex (nodeArena_afterAttempt_connect graph _ _))
  | removeConnection id =>
      refine .nothing ?_
      rw [apply]
      cases held : graph.connection? id with
      | none => rw [removeConnection_of_absent held]
      | some connection => rw [removeConnection_of_held held]
  | setDocument id document =>
      refine .nothing ?_
      cases changed : graph.setDocument id document with
      | error refusal => simp only [apply, changed]
      | ok after =>
          obtain ⟨-, rfl⟩ := setDocument_eq_ok_iff.mp changed
          simp only [apply, changed, Arena.nextIndex_modify]
  | clear => exact .nothing (Arena.nextIndex_clear _)
  | load file =>
      have row := handsOut_addNodes graph.clear (file.nodes.map Project.FileNode.draft)
      have same : (graph.load file).nodeArena =
          (graph.clear.addNodes (file.nodes.map Project.FileNode.draft)).2.nodeArena :=
        nodeArena_foldl_addTo _ _ _
      rw [← same] at row
      exact Arena.HandsOut.append (.nothing (Arena.nextIndex_clear _)) row

/-- An edit hands out handles of connections in a row. -/
theorem handsOut_newConnections (graph : Graph) (edit : Edit) :
    graph.connectionArena.HandsOut (graph.apply edit).connectionArena
      ((graph.newConnections edit).map ConnectionId.index) := by
  cases edit with
  | addNode draft => exact .nothing rfl
  | removeNode id =>
      refine .nothing ?_
      rw [apply]
      cases held : graph.node? id with
      | none => rw [removeNode_of_absent held]
      | some node =>
          rw [removeNode_of_held held]
          exact Arena.nextIndex_filter _ _
  | addConnection source target => exact handsOut_afterAttempt_addConnection graph source target
  | connect source target => exact handsOut_afterAttempt_connect graph source target
  | removeConnection id =>
      refine .nothing ?_
      rw [apply]
      cases held : graph.connection? id with
      | none => rw [removeConnection_of_absent held]
      | some connection =>
          rw [removeConnection_of_held held]
          exact Arena.nextIndex_erase _ _
  | setDocument id document =>
      refine .nothing ?_
      cases changed : graph.setDocument id document with
      | error refusal => simp only [apply, changed]
      | ok after =>
          obtain ⟨-, rfl⟩ := setDocument_eq_ok_iff.mp changed
          simp only [apply, changed]
  | clear => exact .nothing (Arena.nextIndex_clear _)
  | load file =>
      have row := handsOut_newFileConnections
        (graph.clear.addNodes (file.nodes.map Project.FileNode.draft)).1
        (graph.clear.addNodes (file.nodes.map Project.FileNode.draft)).2 file.connections
      rw [connectionArena_addNodes] at row
      exact Arena.HandsOut.append (.nothing (Arena.nextIndex_clear _)) row

/-- A run hands out handles of nodes in a row. -/
theorem handsOut_createdNodes (graph : Graph) (edits : List Edit) :
    graph.nodeArena.HandsOut (graph.run edits).nodeArena
      ((graph.createdNodes edits).map NodeId.index) := by
  induction edits generalizing graph with
  | nil => exact .nothing rfl
  | cons edit edits inductionHypothesis =>
      rw [createdNodes, List.map_append]
      exact (handsOut_newNodes graph edit).append (inductionHypothesis (graph.apply edit))

/-- A run hands out handles of connections in a row. -/
theorem handsOut_createdConnections (graph : Graph) (edits : List Edit) :
    graph.connectionArena.HandsOut (graph.run edits).connectionArena
      ((graph.createdConnections edits).map ConnectionId.index) := by
  induction edits generalizing graph with
  | nil => exact .nothing rfl
  | cons edit edits inductionHypothesis =>
      rw [createdConnections, List.map_append]
      exact (handsOut_newConnections graph edit).append (inductionHypothesis (graph.apply edit))

theorem index_createdNodes (edits : List Edit) :
    (empty.createdNodes edits).map NodeId.index =
      List.range (empty.run edits).nodeArena.nextIndex :=
  (handsOut_createdNodes empty edits).eq_range

theorem index_createdConnections (edits : List Edit) :
    (empty.createdConnections edits).map ConnectionId.index =
      List.range (empty.run edits).connectionArena.nextIndex :=
  (handsOut_createdConnections empty edits).eq_range

/-! ## Handles whose node or connection is gone -/

section

variable {id : NodeId} (absent : graph.node? id = none)

include absent

theorem requireOutput_of_absent : graph.requireOutput id = .error (.unknownNode id) := by
  simp only [requireOutput, require, absent, bind, Except.bind]

theorem requireInput_of_absent : graph.requireInput id = .error (.unknownNode id) := by
  simp only [requireInput, require, absent, bind, Except.bind]

theorem setDocument_of_absent (document : Option String) :
    graph.setDocument id document = .error (.unknownNode id) := by
  simp only [setDocument, require, absent, bind, Except.bind]

theorem connect_from_absent (target : NodeId) :
    graph.connect id target = .error (.unknownNode id) := by
  simp only [connect, requireOutput_of_absent absent, bind, Except.bind]

theorem connect_to_absent (source : NodeId) :
    ∃ refusal, graph.connect source id = .error refusal ∧
      (refusal = .unknownNode id ∨ graph.requireOutput source = .error refusal) := by
  simp only [connect, requireInput_of_absent absent, bind, Except.bind]
  cases graph.requireOutput source with
  | error refusal => exact ⟨refusal, rfl, .inr rfl⟩
  | ok port => exact ⟨.unknownNode id, rfl, .inl rfl⟩

theorem addConnection_from_absent {source : Port} (target : Port) (same : source.node = id) :
    ∃ refusal, graph.addConnection source target = .error refusal ∧
      (refusal = .unknownNode id ∨ requireSide source .output = .error refusal ∨
        requireSide target .input = .error refusal) := by
  subst same
  simp only [addConnection, requireOutput_of_absent absent, bind, Except.bind]
  cases requireSide source .output with
  | error refusal => exact ⟨refusal, rfl, .inr (.inl rfl)⟩
  | ok =>
      cases requireSide target .input with
      | error refusal => exact ⟨refusal, rfl, .inr (.inr rfl)⟩
      | ok => exact ⟨.unknownNode source.node, rfl, .inl rfl⟩

theorem addConnection_to_absent (source : Port) {target : Port} (same : target.node = id) :
    ∃ refusal, graph.addConnection source target = .error refusal ∧
      (refusal = .unknownNode id ∨ requireSide source .output = .error refusal ∨
        requireSide target .input = .error refusal ∨
        graph.requireOutput source.node = .error refusal) := by
  subst same
  simp only [addConnection, requireInput_of_absent absent, bind, Except.bind]
  cases requireSide source .output with
  | error refusal => exact ⟨refusal, rfl, .inr (.inl rfl)⟩
  | ok =>
      cases requireSide target .input with
      | error refusal => exact ⟨refusal, rfl, .inr (.inr (.inl rfl))⟩
      | ok =>
          cases graph.requireOutput source.node with
          | error refusal => exact ⟨refusal, rfl, .inr (.inr (.inr rfl))⟩
          | ok port => exact ⟨.unknownNode target.node, rfl, .inl rfl⟩

/-- An edit that asks for a node under the handle fails. -/
theorem fails_of_names {edit : Edit} (names : edit.Names id) : graph.Fails edit := by
  cases edit with
  | removeNode other =>
      obtain rfl : other = id := names
      exact congrArg Prod.fst (removeNode_of_absent absent)
  | setDocument other document =>
      obtain rfl : other = id := names
      exact ⟨_, setDocument_of_absent absent document⟩
  | addConnection source target =>
      rcases names with same | same
      · obtain ⟨refusal, refused, -⟩ := addConnection_from_absent absent target same
        exact ⟨refusal, refused⟩
      · obtain ⟨refusal, refused, -⟩ := addConnection_to_absent absent source same
        exact ⟨refusal, refused⟩
  | connect source target =>
      rcases names with rfl | rfl
      · exact ⟨_, connect_from_absent absent target⟩
      · obtain ⟨refusal, refused, -⟩ := connect_to_absent absent source
        exact ⟨refusal, refused⟩
  | addNode _ | removeConnection _ | clear | load _ => exact absurd names not_false

/-- A handle that leads to no node is answered to as that of a node that is gone. -/
theorem nodeGone_of_absent : graph.NodeGone id where
  node?_eq := absent
  removeNode_eq := removeNode_of_absent absent
  setDocument_eq := setDocument_of_absent absent
  connect_from := connect_from_absent absent
  connect_to := connect_to_absent absent
  addConnection_from _ target := addConnection_from_absent absent target
  addConnection_to source _ := addConnection_to_absent absent source
  unchanged _ names := apply_of_fails (fails_of_names absent names)

end

theorem connectionGone_of_absent {id : ConnectionId} (absent : graph.connection? id = none) :
    graph.ConnectionGone id :=
  ⟨absent, removeConnection_of_absent absent⟩

/-- Whatever takes a node away leaves its handle without one. -/
theorem node?_of_takesNode {id : NodeId} {edit : Edit} (live : graph.Live id)
    (takes : edit.TakesNode id) : (graph.apply edit).node? id = none := by
  obtain ⟨node, held⟩ := live
  cases edit with
  | removeNode other =>
      obtain rfl : other = id := takes
      rw [apply, removeNode_of_held held, node?, Arena.get?_erase, if_pos rfl]
  | clear => exact Arena.get?_clear _ _
  | load file =>
      exact (retired_of_changes_clear
        ((addNodes_changes _ _).trans (foldl_addTo_changes _ _ _))).1 id node held
  | addNode _ | addConnection _ _ | connect _ _ | removeConnection _ | setDocument _ _ =>
      exact absurd takes not_false

/-- Whatever takes a connection away leaves its handle without one. A node that is removed
takes along every connection of which it is an end. -/
theorem WellFormed.connection?_of_takesConnection (wellFormed : graph.WellFormed)
    {connection : Connection} {edit : Edit} (member : connection ∈ graph.connections)
    (takes : edit.TakesConnection connection) :
    (graph.apply edit).connection? connection.id = none := by
  have held := wellFormed.mem_connections_iff.mp member
  cases edit with
  | removeNode id =>
      have live : graph.Live id := by
        obtain ⟨source, target⟩ := wellFormed.ends_live member
        simp only [Edit.TakesConnection, Connection.touches, Bool.or_eq_true, beq_iff_eq] at takes
        rcases takes with rfl | rfl
        · exact source
        · exact target
      obtain ⟨node, nodeHeld⟩ := live
      have refused : (!connection.touches id) = false := congrArg not takes
      rw [connection?] at held
      rw [apply, removeNode_of_held nodeHeld, connection?, Arena.get?_filter, held,
        Option.filter_some, refused]
      rfl
  | removeConnection id =>
      obtain rfl : connection.id = id := takes
      rw [apply, removeConnection_of_held held, connection?, Arena.get?_erase, if_pos rfl]
  | clear => exact Arena.get?_clear _ _
  | load file =>
      exact (retired_of_changes_clear
        ((addNodes_changes _ _).trans (foldl_addTo_changes _ _ _))).2 _ connection held
  | addNode _ | addConnection _ _ | connect _ _ | setDocument _ _ => exact absurd takes not_false

/-- The handles of a run. None is handed out twice, neither of nodes nor of connections, and
each is less than their number. What the graph holds is listed in the order of its creation.
An edit that takes a node or a connection away leaves its handle without one, be it alone,
together with a node, in a clear or in a load. A handle that was handed out and leads nowhere
is answered to as that of something gone, whatever is done afterwards. -/
theorem handles_of_run (edits : List Edit) :
    (empty.createdNodes edits).Nodup ∧ (empty.createdConnections edits).Nodup ∧
      (∀ id ∈ empty.createdNodes edits, id.index < (empty.createdNodes edits).length) ∧
      (∀ id ∈ empty.createdConnections edits,
        id.index < (empty.createdConnections edits).length) ∧
      (empty.run edits).nodeIds.Sublist (empty.createdNodes edits) ∧
      (empty.run edits).connectionIds.Sublist (empty.createdConnections edits) ∧
      (∀ (edit : Edit) (id : NodeId), (empty.run edits).Live id → edit.TakesNode id →
        ((empty.run edits).apply edit).node? id = none) ∧
      (∀ (edit : Edit), ∀ connection ∈ (empty.run edits).connections,
        edit.TakesConnection connection →
        ((empty.run edits).apply edit).connection? connection.id = none) ∧
      (∀ id ∈ empty.createdNodes edits, (empty.run edits).node? id = none →
        ∀ later, ((empty.run edits).run later).NodeGone id) ∧
      (∀ id ∈ empty.createdConnections edits, (empty.run edits).connection? id = none →
        ∀ later, ((empty.run edits).run later).ConnectionGone id) := by
  have wellFormed : (empty.run edits).WellFormed := Reachable.wellFormed ⟨edits, rfl⟩
  have nodes := index_createdNodes edits
  have connections := index_createdConnections edits
  have issuedNode : ∀ id ∈ empty.createdNodes edits,
      id.index < (empty.run edits).nodeArena.nextIndex := by
    intro id member
    rw [← List.mem_range, ← nodes]
    exact List.mem_map_of_mem member
  have issuedConnection : ∀ id ∈ empty.createdConnections edits,
      id.index < (empty.run edits).connectionArena.nextIndex := by
    intro id member
    rw [← List.mem_range, ← connections]
    exact List.mem_map_of_mem member
  have nodeNumber : (empty.createdNodes edits).length =
      (empty.run edits).nodeArena.nextIndex := by
    simpa using congrArg List.length nodes
  have connectionNumber : (empty.createdConnections edits).length =
      (empty.run edits).connectionArena.nextIndex := by
    simpa using congrArg List.length connections
  refine ⟨.of_map NodeId.index ?_, .of_map ConnectionId.index ?_, ?_, ?_, ?_, ?_,
    fun edit id => node?_of_takesNode,
    fun edit connection => wellFormed.connection?_of_takesConnection, ?_, ?_⟩
  · rw [nodes]
    exact List.nodup_range
  · rw [connections]
    exact List.nodup_range
  · rw [nodeNumber]
    exact issuedNode
  · rw [connectionNumber]
    exact issuedConnection
  · refine sublist_of_sublist_map (fun _ _ => NodeId.ext) ?_
    rw [nodes, nodeIds, List.map_map]
    exact Arena.slots_sublist wellFormed.node_placed
  · refine sublist_of_sublist_map (fun _ _ => ConnectionId.ext) ?_
    rw [connections, connectionIds, List.map_map]
    exact Arena.slots_sublist wellFormed.connection_placed
  · intro id member absent later
    exact nodeGone_of_absent ((Retains.changes (run_changes _ later)).nodes.get?_eq_none id.index
      (issuedNode id member) absent)
  · intro id member absent later
    exact connectionGone_of_absent
      ((Retains.changes (run_changes _ later)).connections.get?_eq_none id.index
        (issuedConnection id member) absent)

theorem handles_after_busyHistory :
    empty.createdNodes busyHistory = [⟨0⟩, ⟨1⟩, ⟨2⟩, ⟨3⟩, ⟨4⟩, ⟨5⟩] ∧
      empty.createdConnections busyHistory = [⟨0⟩, ⟨1⟩, ⟨2⟩, ⟨3⟩, ⟨4⟩] ∧
      (empty.run busyHistory).nodeIds = [⟨2⟩, ⟨3⟩, ⟨5⟩] ∧
      (empty.run busyHistory).connectionIds = [⟨1⟩, ⟨2⟩, ⟨4⟩] ∧
      ((empty.run busyHistory).run [.clear, .addNode { typeLabel := "WAIT" }]).NodeGone ⟨4⟩ ∧
      ((empty.run busyHistory).run [.connect ⟨3⟩ ⟨2⟩]).ConnectionGone ⟨3⟩ ∧
      ((empty.run busyHistory).apply .clear).node? ⟨5⟩ = none ∧
      ((empty.run busyHistory).apply (.removeNode ⟨5⟩)).connection? ⟨4⟩ = none := by
  have nodes : empty.createdNodes busyHistory = [⟨0⟩, ⟨1⟩, ⟨2⟩, ⟨3⟩, ⟨4⟩, ⟨5⟩] := by
    decide +kernel
  have connections : empty.createdConnections busyHistory = [⟨0⟩, ⟨1⟩, ⟨2⟩, ⟨3⟩, ⟨4⟩] := by
    decide +kernel
  obtain ⟨-, -, -, -, -, -, takesNode, takesConnection, nodeGone, connectionGone⟩ :=
    handles_of_run busyHistory
  have removed : (empty.run busyHistory).node? ⟨4⟩ = none := by decide +kernel
  have cascaded : (empty.run busyHistory).connection? ⟨3⟩ = none := by decide +kernel
  have live : (empty.run busyHistory).Live ⟨5⟩ :=
    Option.isSome_iff_exists.mp (by decide +kernel)
  have listed : ⟨⟨4⟩, ⟨5⟩, ⟨2⟩⟩ ∈ (empty.run busyHistory).connections := by decide +kernel
  exact ⟨nodes, connections, by decide +kernel, by decide +kernel,
    nodeGone ⟨4⟩ (by simp [nodes]) removed _, connectionGone ⟨3⟩ (by simp [connections]) cascaded _,
    takesNode .clear ⟨5⟩ live trivial, takesConnection (.removeNode ⟨5⟩) _ listed rfl⟩

end Graph

end MotionSteps
