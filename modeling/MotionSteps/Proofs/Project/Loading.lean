import Mathlib.Data.List.Basic
import MotionSteps.Proofs.Graph.SinglePath

/-!
# What a load makes of a graph

A load empties every slot and puts the nodes of the file into the slots behind them, so
their handles lie in a row. `ends_load` says which connections it adds: those of the file,
in order, that name two nodes whose kinds let a connection pass. `save_load` turns this
round: saving what was loaded gives the file back without its other connections, whatever
the graph held before.
-/

namespace MotionSteps

/-- The node that a draft becomes under a handle. -/
def NodeDraft.node (draft : NodeDraft) (id : NodeId) : Node where
  id
  label := draft.label.getD draft.typeLabel
  typeLabel := draft.typeLabel
  document := draft.document
  position := draft.position
  ports := draft.ports.getD (.ofLabel draft.typeLabel)

namespace Project

/-- The kind of step that a node of a file means. -/
def FileNode.kind (node : FileNode) : StepKind :=
  .ofLabel node.typeLabel

/-- The node of a file at a position, if there is one. -/
def File.node? (file : File) (position : Int) : Option FileNode :=
  if position < 0 then none else file.nodes[position.toNat]?

/-- Whether a connection of a file names two nodes whose kinds let it pass. -/
def File.carries (file : File) (connection : FileConnection) : Bool :=
  (file.node? connection.source).any (fun node => node.kind.ports.output) &&
    (file.node? connection.target).any (fun node => node.kind.ports.input)

/-- The ends that a connection gets when the first node of its file has the handle
`first` and the others follow. -/
def FileConnection.endsFrom (first : Nat) (connection : FileConnection) : NodeId × NodeId :=
  (⟨first + connection.source.toNat⟩, ⟨first + connection.target.toNat⟩)

/-- The connection between these ends under a handle. -/
def FileConnection.connection (connection : FileConnection) (first : Nat) (id : ConnectionId) :
    Connection :=
  ⟨id, (connection.endsFrom first).1, (connection.endsFrom first).2⟩

end Project

namespace Graph

variable {graph : Graph}

/-! ## Adding nodes in a row -/

theorem addNode_eq (graph : Graph) (draft : NodeDraft) :
    graph.addNode draft =
      (⟨graph.nodeArena.nextIndex⟩,
        { graph with
          nodeArena := graph.nodeArena.insert (draft.node ⟨graph.nodeArena.nextIndex⟩) }) :=
  rfl

/-- The handles that are handed out lie in a row. -/
theorem addNodes_ids (graph : Graph) (drafts : List NodeDraft) :
    (graph.addNodes drafts).1 =
      (List.range' graph.nodeArena.nextIndex drafts.length).map NodeId.mk := by
  induction drafts generalizing graph with
  | nil => rfl
  | cons draft drafts inductionHypothesis =>
      simp [addNodes, addNode_eq, inductionHypothesis, List.range'_succ]

/-- The nodes of the drafts fill the next slots. -/
theorem addNodes_graph (graph : Graph) (drafts : List NodeDraft) :
    (graph.addNodes drafts).2 =
      { graph with
        nodeArena := graph.nodeArena.insertAll (fun index draft => draft.node ⟨index⟩) drafts } := by
  induction drafts generalizing graph with
  | nil => rfl
  | cons draft drafts inductionHypothesis =>
      simp [addNodes, addNode_eq, inductionHypothesis]

theorem connectionArena_addNodes (graph : Graph) (drafts : List NodeDraft) :
    (graph.addNodes drafts).2.connectionArena = graph.connectionArena := by
  rw [addNodes_graph]

/-! ## Adding connections in a row -/

theorem WellFormed.changes {after : Graph} (wellFormed : graph.WellFormed)
    (changes : Changes graph after) : after.WellFormed := by
  induction changes with
  | refl => exact wellFormed
  | tail _ change inductionHypothesis => exact inductionHypothesis.change change

/-- An attempt to connect two nodes that have the ports adds a connection between them. -/
theorem WellFormed.afterAttempt_connect (wellFormed : graph.WellFormed) {source target : NodeId}
    (leaves : graph.HasOutput source) (enters : graph.HasInput target) :
    graph.afterAttempt (graph.connect source target) =
      { graph with
        connectionArena :=
          graph.connectionArena.insert ⟨⟨graph.connectionArena.nextIndex⟩, source, target⟩ } := by
  obtain ⟨first, firstHeld, output⟩ := leaves
  obtain ⟨second, secondHeld, input⟩ := enters
  obtain rfl := wellFormed.id_of_node? firstHeld
  obtain rfl := wellFormed.id_of_node? secondHeld
  have connected : graph.connect first.id second.id =
      .ok (⟨graph.connectionArena.nextIndex⟩, { graph with
        connectionArena := graph.connectionArena.insert
          ⟨⟨graph.connectionArena.nextIndex⟩, first.id, second.id⟩ }) := by
    refine connect_eq_ok_iff.mpr ⟨⟨first.id, .output⟩, ⟨second.id, .input⟩,
      requireOutput_eq_ok_iff.mpr ⟨first, firstHeld, output, rfl⟩,
      requireInput_eq_ok_iff.mpr ⟨second, secondHeld, input, rfl⟩, ?_⟩
    exact addConnection_eq_ok_iff.mpr
      ⟨rfl, rfl, ⟨first, firstHeld, output⟩, ⟨second, secondHeld, input⟩, rfl, rfl⟩
  rw [connected]
  rfl

/-- An attempt to connect nodes that lack a port changes nothing. -/
theorem afterAttempt_connect_of_not {source target : NodeId}
    (lacks : ¬ (graph.HasOutput source ∧ graph.HasInput target)) :
    graph.afterAttempt (graph.connect source target) = graph := by
  cases attempt : graph.connect source target with
  | error refusal => rfl
  | ok added =>
      obtain ⟨id, extended⟩ := added
      obtain ⟨leaving, entering, output, input, -⟩ := connect_eq_ok_iff.mp attempt
      exact absurd ⟨hasOutput_iff.mpr ⟨leaving, output⟩, hasInput_iff.mpr ⟨entering, input⟩⟩ lacks

/-- Attempts to add a connection leave the nodes alone. -/
theorem nodeArena_afterAttempt_addConnection (graph : Graph) (source target : Port) :
    (graph.afterAttempt (graph.addConnection source target)).nodeArena = graph.nodeArena := by
  cases attempt : graph.addConnection source target with
  | error refusal => rfl
  | ok added =>
      obtain ⟨id, extended⟩ := added
      obtain ⟨-, -, -, -, -, rfl⟩ := addConnection_eq_ok_iff.mp attempt
      rfl

theorem nodeArena_afterAttempt_connect (graph : Graph) (source target : NodeId) :
    (graph.afterAttempt (graph.connect source target)).nodeArena = graph.nodeArena := by
  cases attempt : graph.connect source target with
  | error refusal => rfl
  | ok added =>
      obtain ⟨id, extended⟩ := added
      obtain ⟨leaving, entering, -, -, inserted⟩ := connect_eq_ok_iff.mp attempt
      have same := nodeArena_afterAttempt_addConnection graph leaving entering
      rw [inserted] at same
      exact same

/-- A connection of a file is attempted between the nodes that it names. -/
theorem addTo_eq (ids : List NodeId) (graph : Graph) (connection : Project.FileConnection) :
    connection.addTo ids graph =
      match Project.nodeAt? ids connection.source, Project.nodeAt? ids connection.target with
      | some source, some target => graph.afterAttempt (graph.connect source target)
      | _, _ => graph := by
  unfold Project.FileConnection.addTo
  cases Project.nodeAt? ids connection.source with
  | none => rfl
  | some source =>
      cases Project.nodeAt? ids connection.target with
      | none => rfl
      | some target => cases graph.connect source target <;> rfl

theorem nodeArena_addTo (ids : List NodeId) (graph : Graph)
    (connection : Project.FileConnection) :
    (connection.addTo ids graph).nodeArena = graph.nodeArena := by
  rw [addTo_eq]
  split
  · exact nodeArena_afterAttempt_connect graph _ _
  · rfl

theorem nodeArena_foldl_addTo (ids : List NodeId) (graph : Graph)
    (connections : List Project.FileConnection) :
    (connections.foldl (Project.FileConnection.addTo ids) graph).nodeArena = graph.nodeArena := by
  induction connections generalizing graph with
  | nil => rfl
  | cons connection connections inductionHypothesis =>
      rw [List.foldl_cons, inductionHypothesis, nodeArena_addTo]

/-- Nodes are looked up in the arena of nodes alone. -/
theorem node?_congr {first second : Graph} (same : first.nodeArena = second.nodeArena)
    (id : NodeId) : first.node? id = second.node? id := by
  rw [node?, node?, same]

/-! ## The nodes of a loaded graph -/

/-- A loaded graph is well formed, whatever the graph was before. -/
theorem load_wellFormed (graph : Graph) (file : Project.File) : (graph.load file).WellFormed :=
  (WellFormed.clear graph).changes ((addNodes_changes _ _).trans (foldl_addTo_changes _ _ _))

/-- The handles of a loaded graph lie in a row behind those handed out before. -/
theorem nodes_load (graph : Graph) (file : Project.File) :
    (graph.load file).nodes =
      List.zipWith (fun node index => node.draft.node ⟨index⟩) file.nodes
        (List.range' graph.nodeArena.nextIndex file.nodes.length) := by
  have same : (graph.load file).nodes =
      (graph.clear.addNodes (file.nodes.map Project.FileNode.draft)).2.nodes :=
    congrArg Arena.toList (nodeArena_foldl_addTo _ _ _)
  rw [same, addNodes_graph, nodes, Arena.toList_insertAll]
  apply List.ext_getElem
  · simp [clear]
  · intro position inside _
    simp [clear]

theorem nodeIds_load (graph : Graph) (file : Project.File) :
    (graph.load file).nodeIds =
      (List.range' graph.nodeArena.nextIndex file.nodes.length).map NodeId.mk := by
  rw [nodeIds, nodes_load]
  apply List.ext_getElem
  · simp
  · intro position inside _
    simp [NodeDraft.node]

/-- The node at a position of the file is found under the handle of that position. -/
theorem node?_load (graph : Graph) (file : Project.File) {position : Nat}
    {node : Project.FileNode} (there : file.nodes[position]? = some node) :
    (graph.load file).node? ⟨graph.nodeArena.nextIndex + position⟩ =
      some (node.draft.node ⟨graph.nodeArena.nextIndex + position⟩) := by
  obtain ⟨inside, rfl⟩ := List.getElem?_eq_some_iff.mp there
  have listed : file.nodes[position].draft.node ⟨graph.nodeArena.nextIndex + position⟩ ∈
      (graph.load file).nodes := by
    rw [nodes_load, List.mem_iff_getElem]
    exact ⟨position, by simpa using inside, by simp⟩
  exact (load_wellFormed graph file).mem_nodes_iff.mp listed

/-! ## The connections of a loaded graph -/

variable (file : Project.File)

theorem nodeAt?_row (first : Nat) (position : Int) :
    Project.nodeAt? ((List.range' first file.nodes.length).map NodeId.mk) position =
      (file.node? position).map fun _ => ⟨first + position.toNat⟩ := by
  unfold Project.nodeAt? Project.File.node?
  split
  · rfl
  · by_cases inside : position.toNat < file.nodes.length
    · simp [inside]
    · simp [inside]

/-- The node at a position of the file, under its handle. -/
theorem node?_of_file_node? {current : Graph}
    (same : current.nodeArena = (graph.load file).nodeArena) {position : Int}
    {node : Project.FileNode} (there : file.node? position = some node) :
    current.node? ⟨graph.nodeArena.nextIndex + position.toNat⟩ =
      some (node.draft.node ⟨graph.nodeArena.nextIndex + position.toNat⟩) := by
  unfold Project.File.node? at there
  split at there
  · cases there
  · rw [node?_congr same]
    exact node?_load graph file there

/-- Loaded nodes have the ports of their kinds, so a connection of the file is added between
them if the file says that it is carried, and else nothing changes. -/
theorem addTo_loaded {current : Graph} (wellFormed : current.WellFormed)
    (same : current.nodeArena = (graph.load file).nodeArena)
    (connection : Project.FileConnection) :
    connection.addTo ((List.range' graph.nodeArena.nextIndex file.nodes.length).map NodeId.mk)
        current =
      if file.carries connection then
        { current with
          connectionArena := current.connectionArena.insert
            (connection.connection graph.nodeArena.nextIndex
              ⟨current.connectionArena.nextIndex⟩) }
      else current := by
  rw [addTo_eq, nodeAt?_row, nodeAt?_row, Project.File.carries]
  cases sourceThere : file.node? connection.source with
  | none => simp
  | some source =>
      cases targetThere : file.node? connection.target with
      | none => simp
      | some target =>
          have sourceHeld := node?_of_file_node? file same sourceThere
          have targetHeld := node?_of_file_node? file same targetThere
          have ports_iff :
              (current.HasOutput ⟨graph.nodeArena.nextIndex + connection.source.toNat⟩ ∧
                current.HasInput ⟨graph.nodeArena.nextIndex + connection.target.toNat⟩) ↔
                (source.kind.ports.output && target.kind.ports.input) = true := by
            rw [HasOutput, HasInput, sourceHeld, targetHeld]
            simp [NodeDraft.node, Project.FileNode.draft, Project.FileNode.kind]
          simp only [Option.map_some, Option.any_some]
          by_cases carried : (source.kind.ports.output && target.kind.ports.input) = true
          · obtain ⟨leaves, enters⟩ := ports_iff.mpr carried
            rw [if_pos carried, wellFormed.afterAttempt_connect leaves enters]
            rfl
          · have refused := fun ports => carried (ports_iff.mp ports)
            rw [if_neg carried, afterAttempt_connect_of_not refused]

/-- The connections of a file are tried one after the other: the induction is on them, and
the nodes stay as they are. One that is left out uses up no handle. -/
theorem foldl_addTo_loaded {current : Graph} (wellFormed : current.WellFormed)
    (same : current.nodeArena = (graph.load file).nodeArena)
    (connections : List Project.FileConnection) :
    connections.foldl (Project.FileConnection.addTo
        ((List.range' graph.nodeArena.nextIndex file.nodes.length).map NodeId.mk)) current =
      { current with
        connectionArena := current.connectionArena.insertAll
          (fun index connection => connection.connection graph.nodeArena.nextIndex ⟨index⟩)
          (connections.filter file.carries) } := by
  induction connections generalizing current with
  | nil => rfl
  | cons connection connections inductionHypothesis =>
      rw [List.foldl_cons,
        inductionHypothesis (wellFormed.changes (addTo_changes _ current connection))
          ((nodeArena_addTo _ current connection).trans same),
        addTo_loaded file wellFormed same, List.filter_cons]
      split <;> rfl

/-- The two arenas of a loaded graph: the nodes of the file fill the slots behind those of
the nodes before, and the connections that are carried those behind the connections. -/
theorem load_eq (graph : Graph) (file : Project.File) :
    graph.load file =
      { nodeArena := graph.nodeArena.clear.insertAll
          (fun index draft => draft.node ⟨index⟩) (file.nodes.map Project.FileNode.draft)
        connectionArena := graph.connectionArena.clear.insertAll
          (fun index connection => connection.connection graph.nodeArena.nextIndex ⟨index⟩)
          (file.connections.filter file.carries) } := by
  have filled : (graph.clear.addNodes (file.nodes.map Project.FileNode.draft)).2.WellFormed :=
    (WellFormed.clear graph).changes (addNodes_changes _ _)
  have same : (graph.clear.addNodes (file.nodes.map Project.FileNode.draft)).2.nodeArena =
      (graph.load file).nodeArena :=
    (nodeArena_foldl_addTo _ _ _).symm
  have ids : (graph.clear.addNodes (file.nodes.map Project.FileNode.draft)).1 =
      (List.range' graph.nodeArena.nextIndex file.nodes.length).map NodeId.mk := by
    simp [addNodes_ids, clear]
  rw [load]
  simp only
  rw [ids, foldl_addTo_loaded file filled same, addNodes_graph]
  rfl

theorem connections_load (graph : Graph) (file : Project.File) :
    (graph.load file).connections =
      (file.connections.filter file.carries).mapIdx fun position connection =>
        connection.connection graph.nodeArena.nextIndex
          ⟨graph.connectionArena.nextIndex + position⟩ := by
  rw [load_eq, connections, Arena.toList_insertAll]
  simp

/-- A load adds the connections that the file says are carried, in order, and no other. -/
theorem ends_load (graph : Graph) (file : Project.File) :
    (graph.load file).connections.map Connection.ends =
      (file.connections.filter file.carries).map
        (Project.FileConnection.endsFrom graph.nodeArena.nextIndex) := by
  rw [connections_load]
  apply List.ext_getElem
  · simp
  · intro position inside _
    simp [Project.FileConnection.connection, Connection.ends]

/-! ## Saving what was loaded -/

/-- A connection as a project file holds it, by the positions of its ends in a list. -/
def savedEnds? (ids : List NodeId) (ends : NodeId × NodeId) : Option Project.FileConnection :=
  (ids.idxOf? ends.1).bind fun source =>
    (ids.idxOf? ends.2).map fun target => ⟨Int.ofNat source, Int.ofNat target⟩

theorem connections_save (graph : Graph) :
    graph.save.connections =
      (graph.connections.map Connection.ends).filterMap (savedEnds? graph.nodeIds) := by
  rw [List.filterMap_map]
  refine List.filterMap_congr fun connection _ => ?_
  simp only [Function.comp_apply, savedEnds?, Connection.ends]
  cases graph.nodeIds.idxOf? connection.source with
  | none => rfl
  | some source => cases graph.nodeIds.idxOf? connection.target <;> rfl

/-- The position of a handle in a row of handles. -/
theorem idxOf?_row {first count position : Nat} (inside : position < count) :
    ((List.range' first count).map NodeId.mk).idxOf? ⟨first + position⟩ = some position := by
  rw [List.idxOf?_eq_some_iff]
  refine ⟨by simpa using inside, by simp, ?_⟩
  intro earlier before
  simp only [List.getElem_map, List.getElem_range', Nat.one_mul, NodeId.mk.injEq]
  omega

theorem lt_length_of_node? {position : Int} {node : Project.FileNode}
    (there : file.node? position = some node) :
    0 ≤ position ∧ position.toNat < file.nodes.length := by
  unfold Project.File.node? at there
  split at there
  · cases there
  · next nonnegative =>
      obtain ⟨inside, -⟩ := List.getElem?_eq_some_iff.mp there
      exact ⟨by omega, inside⟩

/-- A connection that is carried is saved as it stood in the file. -/
theorem savedEnds?_endsFrom {connection : Project.FileConnection} (first : Nat)
    (carried : file.carries connection = true) :
    savedEnds? ((List.range' first file.nodes.length).map NodeId.mk) (connection.endsFrom first) =
      some connection := by
  simp only [Project.File.carries, Bool.and_eq_true, Option.any_eq_true] at carried
  obtain ⟨⟨source, sourceThere, -⟩, target, targetThere, -⟩ := carried
  obtain ⟨sourcePositive, sourceInside⟩ := lt_length_of_node? file sourceThere
  obtain ⟨targetPositive, targetInside⟩ := lt_length_of_node? file targetThere
  simp only [savedEnds?, Project.FileConnection.endsFrom, idxOf?_row sourceInside,
    idxOf?_row targetInside, Option.bind_some, Option.map_some, Option.some.injEq]
  rw [Int.ofNat_eq_natCast, Int.ofNat_eq_natCast, Int.toNat_of_nonneg sourcePositive,
    Int.toNat_of_nonneg targetPositive]

/-- The connections of a loaded graph run between the positions that the file names. -/
theorem savedEnds?_load (graph : Graph) (file : Project.File) :
    (graph.load file).connections.map
        (fun connection => savedEnds? (graph.load file).nodeIds connection.ends) =
      (file.connections.filter file.carries).map some := by
  calc (graph.load file).connections.map _
      = ((graph.load file).connections.map Connection.ends).map
          (savedEnds? (graph.load file).nodeIds) := List.map_map.symm
    _ = (file.connections.filter file.carries).map some := by
      rw [ends_load, nodeIds_load, List.map_map]
      exact List.map_congr_left fun connection member =>
        savedEnds?_endsFrom file _ (List.mem_filter.mp member).2

theorem nodes_save (graph : Graph) :
    graph.save.nodes = graph.nodes.map fun node =>
      ⟨node.typeLabel, node.label, node.position.x, node.position.y, node.document⟩ :=
  rfl

/-- Saving a loaded graph gives the file back without the connections that were left
out. -/
theorem save_load (graph : Graph) (file : Project.File) :
    (graph.load file).save = ⟨file.nodes, file.connections.filter file.carries⟩ := by
  have nodes : (graph.load file).save.nodes = file.nodes := by
    rw [nodes_save, nodes_load]
    apply List.ext_getElem
    · simp
    · intro position inside _
      simp [NodeDraft.node, Project.FileNode.draft]
  have connections : (graph.load file).save.connections = file.connections.filter file.carries := by
    have saved := congrArg (List.filterMap id) (savedEnds?_load graph file)
    rw [List.filterMap_map, List.filterMap_map] at saved
    rw [connections_save, List.filterMap_map]
    exact saved.trans List.filterMap_some
  exact congrArg₂ Project.File.mk nodes connections

end Graph

end MotionSteps
