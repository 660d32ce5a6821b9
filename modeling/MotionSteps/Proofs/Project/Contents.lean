import MotionSteps.Proofs.Graph.Handles
import MotionSteps.Proofs.Project.RoundTrip

/-!
# What a loaded graph contains

`Loaded` says what a graph holds after a load in terms of the file alone. The nodes are those
of the file, under handles in a row. The connections are the possible ones, again under
handles in a row: one that names no node, leaves an end or enters a start is left out and
uses up no handle. Of the graph before the load only the number of handles handed out plays a
part, and `load_of_file` states this for every graph and every file.
-/

namespace MotionSteps

/-- Nothing leaves an end. -/
theorem StepKind.output_ports_iff {kind : StepKind} :
    kind.ports.output = true ↔ kind ≠ .finish := by
  cases kind <;> simp [ports]

/-- Nothing enters a start. -/
theorem StepKind.input_ports_iff {kind : StepKind} :
    kind.ports.input = true ↔ kind ≠ .start := by
  cases kind <;> simp [ports]

namespace Project

/-- The node that a node of a file becomes under a handle. -/
def FileNode.node (node : FileNode) (id : NodeId) : Node where
  id
  label := node.label
  typeLabel := node.typeLabel
  document := node.document
  position := ⟨node.x, node.y⟩
  ports := node.kind.ports

/-- A position of a file holds a node of which a condition is true. -/
def File.HasNode (file : File) (position : Int) (condition : FileNode → Prop) : Prop :=
  0 ≤ position ∧ ∃ node, file.nodes[position.toNat]? = some node ∧ condition node

/-- Both ends of a connection stand in the list of nodes, and it neither leaves an end nor
enters a start. -/
structure File.Possible (file : File) (connection : FileConnection) : Prop where
  source : file.HasNode connection.source fun node => node.kind ≠ .finish
  target : file.HasNode connection.target fun node => node.kind ≠ .start

namespace File

variable {file : File}

theorem hasNode_iff {position : Int} {condition : FileNode → Prop} :
    file.HasNode position condition ↔ ∃ node, file.node? position = some node ∧ condition node := by
  rw [HasNode, node?]
  by_cases negative : position < 0
  · simp [negative]
  · simp [negative, Int.not_lt.mp negative]

theorem carries_iff {connection : FileConnection} :
    file.carries connection = true ↔ file.Possible connection := by
  simp only [carries, Bool.and_eq_true, Option.any_eq_true, StepKind.output_ports_iff,
    StepKind.input_ports_iff]
  constructor
  · rintro ⟨source, target⟩
    exact ⟨hasNode_iff.mpr source, hasNode_iff.mpr target⟩
  · intro possible
    exact ⟨hasNode_iff.mp possible.source, hasNode_iff.mp possible.target⟩

instance (file : File) (connection : FileConnection) : Decidable (file.Possible connection) :=
  decidable_of_iff _ carries_iff

/-- The connections of a file that are possible, in order. -/
def possibleConnections (file : File) : List FileConnection :=
  file.connections.filter (file.Possible ·)

theorem possibleConnections_eq (file : File) :
    file.possibleConnections = file.connections.filter file.carries := by
  refine List.filter_congr fun connection _ => ?_
  rw [Bool.eq_iff_iff, decide_eq_true_iff, carries_iff]

end File

end Project

namespace Graph

/-- What a graph holds once a file was loaded into it. -/
structure Loaded (before : Graph) (file : Project.File) (after : Graph) : Prop where
  nodes_eq : after.nodes = file.nodes.mapIdx fun position node =>
    node.node ⟨before.nodeArena.nextIndex + position⟩
  connections_eq : after.connections = file.possibleConnections.mapIdx fun position connection =>
    { id := ⟨before.connectionArena.nextIndex + position⟩
      source := ⟨before.nodeArena.nextIndex + connection.source.toNat⟩
      target := ⟨before.nodeArena.nextIndex + connection.target.toNat⟩ }
  nextNode_eq : after.nodeArena.nextIndex = before.nodeArena.nextIndex + file.nodes.length
  nextConnection_eq : after.connectionArena.nextIndex =
    before.connectionArena.nextIndex + file.possibleConnections.length
  /-- What was in the graph before is gone, whatever is done afterwards. -/
  nodeGone : ∀ id, before.Live id → ∀ later, (after.run later).NodeGone id
  connectionGone : ∀ id connection, before.connection? id = some connection →
    ∀ later, (after.run later).ConnectionGone id

/-- A graph without its handles: what its nodes hold, and between which positions its
connections run. -/
def outline (graph : Graph) :
    List ((String × String × PlanePoint × Option String) × Ports) ×
      List (Option Project.FileConnection) :=
  (graph.nodes.map fun node => (node.content, node.ports),
    graph.connections.map fun connection => savedEnds? graph.nodeIds connection.ends)

/-- A load takes every node and connection away, and nothing brings one back. -/
theorem gone_after_load (graph : Graph) (file : Project.File) (later : List Edit) :
    (∀ id, graph.Live id → ((graph.load file).run later).NodeGone id) ∧
      ∀ id connection, graph.connection? id = some connection →
        ((graph.load file).run later).ConnectionGone id := by
  have changes : Changes graph.clear ((graph.load file).run later) :=
    ((addNodes_changes _ _).trans (foldl_addTo_changes _ _ _)).trans (run_changes _ later)
  obtain ⟨nodes, connections⟩ := retired_of_changes_clear changes
  constructor
  · rintro id ⟨node, held⟩
    exact nodeGone_of_absent (nodes id node held)
  · intro id connection held
    exact connectionGone_of_absent (connections id connection held)

theorem loaded_load (graph : Graph) (file : Project.File) :
    Loaded graph file (graph.load file) where
  nodes_eq := by
    rw [nodes_load]
    apply List.ext_getElem
    · simp
    · intro position inside _
      simp [NodeDraft.node, Project.FileNode.draft, Project.FileNode.node, Project.FileNode.kind]
  connections_eq := by
    rw [connections_load, file.possibleConnections_eq]
    rfl
  nextNode_eq := by simp [load_eq]
  nextConnection_eq := by simp [load_eq, file.possibleConnections_eq]
  nodeGone id live later := (gone_after_load graph file later).1 id live
  connectionGone id connection held later :=
    (gone_after_load graph file later).2 id connection held

/-- The outline of a loaded graph is that of the file. -/
theorem outline_load (graph : Graph) (file : Project.File) :
    (graph.load file).outline =
      (file.nodes.map fun node => ((node.node ⟨0⟩).content, node.kind.ports),
        file.possibleConnections.map some) := by
  refine Prod.ext ?_ ?_
  · simp only [outline]
    rw [(loaded_load graph file).nodes_eq]
    apply List.ext_getElem
    · simp
    · intro position inside _
      simp [Project.FileNode.node, Node.content]
  · rw [file.possibleConnections_eq]
    exact savedEnds?_load graph file

/-- Of the graph before a load only the numbers of handles handed out play a part. -/
theorem load_eq_of_nextIndex_eq {graph other : Graph} (file : Project.File)
    (nodes : other.nodeArena.nextIndex = graph.nodeArena.nextIndex)
    (connections : other.connectionArena.nextIndex = graph.connectionArena.nextIndex) :
    other.load file = graph.load file := by
  rw [load_eq, load_eq, nodes, Arena.clear_eq_of_nextIndex_eq nodes,
    Arena.clear_eq_of_nextIndex_eq connections]

/-- What a load makes of a graph is given by the file, up to the numbers in the new handles.
Saving it gives the file without its impossible connections, and loading that into any graph
and saving again changes nothing more. -/
theorem load_of_file (graph : Graph) (file : Project.File) :
    Loaded graph file (graph.load file) ∧
      (∀ other : Graph, (other.load file).outline = (graph.load file).outline) ∧
      (∀ other : Graph, other.nodeArena.nextIndex = graph.nodeArena.nextIndex →
        other.connectionArena.nextIndex = graph.connectionArena.nextIndex →
        other.load file = graph.load file) ∧
      (graph.load file).save = ⟨file.nodes, file.possibleConnections⟩ ∧
      ∀ other : Graph, (other.load (graph.load file).save).save = (graph.load file).save := by
  have saved := save_load graph file
  refine ⟨loaded_load graph file, fun other => ?_, fun other => load_eq_of_nextIndex_eq file, ?_,
    fun other => ?_⟩
  · rw [outline_load, outline_load]
  · rw [saved, file.possibleConnections_eq]
  · -- What is carried by a file is carried after the rest has been left out.
    have carries : Project.File.carries ⟨file.nodes, file.connections.filter file.carries⟩ =
        file.carries := rfl
    rw [saved, save_load, carries, List.filter_filter]
    simp only [Bool.and_self]

/-- Of these connections only the first, the fourth and the last two are possible: the others
name a node before the first or behind the last, leave the end or enter the start. -/
example :
    ((empty.run busyHistory).load
      { nodes := [⟨"Jump Export", "out", 1, 2, none⟩, ⟨" start", "s", 0, 0, some "\x7b"⟩,
          ⟨"end", "e", 0, 0, none⟩]
        connections := [⟨1, 0⟩, ⟨-1, 0⟩, ⟨0, 3⟩, ⟨0, 2⟩, ⟨2, 0⟩, ⟨0, 1⟩,
          ⟨-9223372036854775808, 9223372036854775807⟩, ⟨0, 0⟩, ⟨0, 2⟩] }).connections =
      [⟨⟨5⟩, ⟨7⟩, ⟨6⟩⟩, ⟨⟨6⟩, ⟨6⟩, ⟨8⟩⟩, ⟨⟨7⟩, ⟨6⟩, ⟨6⟩⟩, ⟨⟨8⟩, ⟨6⟩, ⟨8⟩⟩] := by
  decide +kernel

end Graph

end MotionSteps
