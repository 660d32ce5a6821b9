import MotionSteps.Graph.Edit
import MotionSteps.Project.File

/-!
# Saving and loading a graph

A saved graph is its nodes and connections without their handles. Loading replaces
what a graph holds. It derives the ports of each node from the kind of step that its
type means, and leaves out the connections that name no node or that these ports
cannot carry.
-/

namespace MotionSteps

namespace Graph

/-- A graph as a project file. -/
def save (graph : Graph) : Project.File :=
  let ids := graph.nodeIds
  { nodes := graph.nodes.map fun node =>
      ⟨node.typeLabel, node.label, node.position.x, node.position.y, node.document⟩
    connections := graph.connections.filterMap fun connection => do
      let source ← ids.idxOf? connection.source
      let target ← ids.idxOf? connection.target
      return ⟨Int.ofNat source, Int.ofNat target⟩ }

/-- Add nodes one after another, and say which handles they got. -/
def addNodes (graph : Graph) : List NodeDraft → List NodeId × Graph
  | [] => ([], graph)
  | draft :: drafts =>
      let (id, extended) := graph.addNode draft
      let (ids, complete) := extended.addNodes drafts
      (id :: ids, complete)

end Graph

namespace Project

/-- The node that a node of a project file describes. -/
def FileNode.draft (node : FileNode) : NodeDraft where
  typeLabel := node.typeLabel
  label := some node.label
  document := node.document
  position := ⟨node.x, node.y⟩
  ports := some (StepKind.ofLabel node.typeLabel).ports

/-- The node at a position of a list, if there is one. -/
def nodeAt? (ids : List NodeId) (position : Int) : Option NodeId :=
  if position < 0 then none else ids[position.toNat]?

/-- Add a connection of a project file whose nodes got the handles `ids`. A connection
that names no node, or that the ports cannot carry, is left out. -/
def FileConnection.addTo (ids : List NodeId) (graph : Graph) (connection : FileConnection) :
    Graph :=
  match nodeAt? ids connection.source, nodeAt? ids connection.target with
  | some source, some target =>
      match graph.connect source target with
      | .ok (_, extended) => extended
      | .error _ => graph
  | _, _ => graph

end Project

namespace Graph

/-- Replace what a graph holds by what a project file describes. -/
def load (graph : Graph) (file : Project.File) : Graph :=
  let (ids, filled) := graph.clear.addNodes (file.nodes.map Project.FileNode.draft)
  file.connections.foldl (Project.FileConnection.addTo ids) filled

/-- The graph that the text of a project file describes. -/
def restore (text : String) : Except Failure Graph := do
  let file ← Project.File.parse text
  return empty.load file

end Graph

end MotionSteps
