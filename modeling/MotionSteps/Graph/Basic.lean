import MotionSteps.Graph.Arena
import MotionSteps.Step.Kind
import MotionSteps.Step.Params

/-!
# The step graph

A project under edit is a graph of nodes and of connections from the output of one
node to the input of another. Nodes and connections are addressed by handles that
are never used again, so they are always listed in the order in which they were
added. The parameter document of a node is kept as text and not interpreted here.
-/

namespace MotionSteps

/-- The handle of a node: how many were handed out before it. The count has no bound; one that is
cut down to 32 bits tells nodes apart while fewer than 2^32 handles were handed out, and is the
same until then. -/
@[ext]
structure NodeId where
  index : Nat
  deriving DecidableEq, Repr

/-- The handle of a connection: how many were handed out before it, with the same remark on its
bound. -/
@[ext]
structure ConnectionId where
  index : Nat
  deriving DecidableEq, Repr

/-- A node handle in messages. -/
def NodeId.name (id : NodeId) : String :=
  "n" ++ Number.naturalText id.index

/-- The side of a node on which a port is. -/
inductive Side where
  | input
  | output
  deriving DecidableEq, Repr

/-- The name of a side. -/
def Side.name : Side → String
  | .input => "input"
  | .output => "output"

/-- A port, whether its node has it or not. -/
structure Port where
  node : NodeId
  side : Side
  deriving DecidableEq, Repr

/-- A node of the graph. -/
structure Node where
  id : NodeId
  label : String
  typeLabel : String
  document : Option String
  position : PlanePoint
  ports : Ports
  deriving DecidableEq, Repr

namespace Node

/-- The kind of step that the node's type label means. -/
def kind (node : Node) : StepKind :=
  .ofLabel node.typeLabel

/-- The node's input port, if it has one. -/
def inputPort? (node : Node) : Option Port :=
  if node.ports.input then some ⟨node.id, .input⟩ else none

/-- The node's output port, if it has one. -/
def outputPort? (node : Node) : Option Port :=
  if node.ports.output then some ⟨node.id, .output⟩ else none

/-- Whether the node has a parameter document that is not blank. -/
def hasDocument (node : Node) : Bool :=
  node.document.any fun document => !(Text.trim document).isEmpty

end Node

/-- A node about to be added. Its label is the type label unless one is given, and its
ports are those the type label implies unless they are given. -/
structure NodeDraft where
  typeLabel : String
  label : Option String := none
  document : Option String := none
  position : PlanePoint := ⟨0, 0⟩
  ports : Option Ports := none
  deriving Repr

/-- A connection from the output of its source to the input of its target. -/
structure Connection where
  id : ConnectionId
  source : NodeId
  target : NodeId
  deriving DecidableEq, Repr

namespace Connection

/-- The port that the connection leaves. -/
def sourcePort (connection : Connection) : Port :=
  ⟨connection.source, .output⟩

/-- The port that the connection enters. -/
def targetPort (connection : Connection) : Port :=
  ⟨connection.target, .input⟩

/-- Whether a node is an end of the connection. -/
def touches (connection : Connection) (node : NodeId) : Bool :=
  connection.source == node || connection.target == node

end Connection

/-- Why an edit of the graph was refused. -/
inductive GraphError where
  | unknownNode (node : NodeId)
  | noOutputPort (node : NodeId)
  | noInputPort (node : NodeId)
  | wrongSide (node : NodeId) (expected found : Side)
  deriving DecidableEq, Repr

namespace GraphError

/-- The code of a refusal. -/
def code : GraphError → String
  | .unknownNode _ => "G001"
  | .noOutputPort _ => "G002"
  | .noInputPort _ => "G003"
  | .wrongSide .. => "G004"

/-- The node that a refusal is about. -/
def node : GraphError → NodeId
  | .unknownNode node | .noOutputPort node | .noInputPort node | .wrongSide node .. => node

/-- The wording of a refusal. -/
def message : GraphError → String
  | .unknownNode node => "node " ++ node.name ++ " does not exist in this graph"
  | .noOutputPort node => "node " ++ node.name ++ " has no output port"
  | .noInputPort node => "node " ++ node.name ++ " has no input port"
  | .wrongSide node expected found =>
      "expected an " ++ expected.name ++ " port on node " ++ node.name ++ ", got an " ++
        found.name ++ " port"

end GraphError

/-- A list from which a member is taken away is shorter. -/
theorem length_erase_lt_of_mem {α : Type} [BEq α] [LawfulBEq α] {item : α} {items : List α}
    (member : item ∈ items) : (items.erase item).length < items.length := by
  have shorter := List.length_erase_of_mem member
  have positive := List.length_pos_of_mem member
  omega

/-- Nodes and connections under edit. -/
structure Graph where
  nodeArena : Arena Node
  connectionArena : Arena Connection
  deriving Repr

namespace Graph

/-- A graph to which nothing was ever added. -/
def empty : Graph :=
  ⟨.empty, .empty⟩

/-- The nodes, in the order in which they were added. -/
def nodes (graph : Graph) : List Node :=
  graph.nodeArena.toList

/-- The handles of the nodes, in the order in which they were added. -/
def nodeIds (graph : Graph) : List NodeId :=
  graph.nodes.map Node.id

/-- The connections, in the order in which they were added. -/
def connections (graph : Graph) : List Connection :=
  graph.connectionArena.toList

/-- The node with a handle. -/
def node? (graph : Graph) (id : NodeId) : Option Node :=
  graph.nodeArena.get? id.index

/-- The connection with a handle. -/
def connection? (graph : Graph) (id : ConnectionId) : Option Connection :=
  graph.connectionArena.get? id.index

/-- The number of nodes. -/
def nodeCount (graph : Graph) : Nat :=
  graph.nodes.length

/-- The number of connections. -/
def connectionCount (graph : Graph) : Nat :=
  graph.connections.length

/-- Whether the graph has no node. -/
def isEmpty (graph : Graph) : Bool :=
  graph.nodes.isEmpty

/-- The connections that leave a node, in the order in which they were added. -/
def outgoing (graph : Graph) (id : NodeId) : List Connection :=
  graph.connections.filter fun connection => connection.source == id

/-- The connections that enter a node, in the order in which they were added. -/
def incoming (graph : Graph) (id : NodeId) : List Connection :=
  graph.connections.filter fun connection => connection.target == id

/-- The nodes to which the connections of a node lead. -/
def successors (graph : Graph) (id : NodeId) : List NodeId :=
  (graph.outgoing id).map Connection.target

/-- The node to which the first connection of a node leads. -/
def firstSuccessor? (graph : Graph) (id : NodeId) : Option NodeId :=
  (graph.successors id).head?

end Graph

end MotionSteps
