import MotionSteps.Graph.Basic
import MotionSteps.Json.Reader.Value

/-!
# Edits of the step graph

Every edit either happens completely or is refused and changes nothing. A node goes
together with its connections. A connection runs from an output port to an input
port that the nodes have.
-/

namespace MotionSteps.Graph

/-- Add a node, and say which handle it got. -/
def addNode (graph : Graph) (draft : NodeDraft) : NodeId × Graph :=
  let id : NodeId := ⟨graph.nodeArena.nextIndex⟩
  let node : Node :=
    { id
      label := draft.label.getD draft.typeLabel
      typeLabel := draft.typeLabel
      document := draft.document
      position := draft.position
      ports := draft.ports.getD (.ofLabel draft.typeLabel) }
  (id, { graph with nodeArena := graph.nodeArena.insert node })

/-- Remove a node and every connection that has it as an end. -/
def removeNode (graph : Graph) (id : NodeId) : Option Node × Graph :=
  match graph.node? id with
  | none => (none, graph)
  | some node =>
      (some node,
        { nodeArena := graph.nodeArena.erase id.index
          connectionArena :=
            graph.connectionArena.filter fun connection => !connection.touches id })

/-- The node with a handle, which must exist. -/
def require (graph : Graph) (id : NodeId) : Except GraphError Node :=
  match graph.node? id with
  | some node => .ok node
  | none => .error (.unknownNode id)

/-- The output port of a node, which must have one. -/
def requireOutput (graph : Graph) (id : NodeId) : Except GraphError Port := do
  let node ← graph.require id
  match node.outputPort? with
  | some port => .ok port
  | none => .error (.noOutputPort id)

/-- The input port of a node, which must have one. -/
def requireInput (graph : Graph) (id : NodeId) : Except GraphError Port := do
  let node ← graph.require id
  match node.inputPort? with
  | some port => .ok port
  | none => .error (.noInputPort id)

/-- A port must be on the expected side. -/
def requireSide (port : Port) (expected : Side) : Except GraphError Unit :=
  if port.side = expected then .ok () else .error (.wrongSide port.node expected port.side)

/-- Add a connection between two ports, and say which handle it got. -/
def addConnection (graph : Graph) (source target : Port) :
    Except GraphError (ConnectionId × Graph) := do
  requireSide source .output
  requireSide target .input
  let _ ← graph.requireOutput source.node
  let _ ← graph.requireInput target.node
  let id : ConnectionId := ⟨graph.connectionArena.nextIndex⟩
  let connection : Connection := ⟨id, source.node, target.node⟩
  return (id, { graph with connectionArena := graph.connectionArena.insert connection })

/-- Connect the output of a node to the input of another. -/
def connect (graph : Graph) (source target : NodeId) :
    Except GraphError (ConnectionId × Graph) := do
  let leaving ← graph.requireOutput source
  let entering ← graph.requireInput target
  graph.addConnection leaving entering

/-- Remove a connection. -/
def removeConnection (graph : Graph) (id : ConnectionId) : Option Connection × Graph :=
  match graph.connection? id with
  | none => (none, graph)
  | some connection =>
      (some connection, { graph with connectionArena := graph.connectionArena.erase id.index })

/-- The label that a parameter document gives to its node: a member `label` that is a
string and not empty. -/
def labelIn? (document : String) : Option String :=
  match Json.parse document with
  | .ok (.object members) =>
      match Json.Members.get? members "label" with
      | some (.string label) => if label.isEmpty then none else some label
      | _ => none
  | _ => none

/-- Replace the parameter document of a node, and its label if the document gives
one. -/
def setDocument (graph : Graph) (id : NodeId) (document : Option String) :
    Except GraphError Graph := do
  let _ ← graph.require id
  let change (node : Node) : Node :=
    { node with
      document
      label := (document.bind labelIn?).getD node.label }
  return { graph with nodeArena := graph.nodeArena.modify id.index change }

/-- Remove every node and every connection. Their handles are not used again. -/
def clear (graph : Graph) : Graph :=
  ⟨graph.nodeArena.clear, graph.connectionArena.clear⟩

end MotionSteps.Graph
