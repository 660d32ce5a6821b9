import MotionSteps.Graph.Basic

/-!
# The order of the steps

A program runs through the nodes in one line. The line follows the first connection
of each node from the first start node on, until a node has no connection or was
visited before. The nodes that the walk missed come after it, in the order in which
they were added. Without a start node the order is that of the graph.
-/

namespace MotionSteps

/-- Every node of a graph, in step order. -/
structure Linearization where
  /-- The start node at which the walk began. -/
  entry : Option NodeId
  /-- The nodes of the walk; all nodes when there was no start. -/
  chain : List NodeId
  /-- The nodes that the walk missed. -/
  unreached : List NodeId
  deriving DecidableEq, Repr

/-- The nodes in step order. -/
def Linearization.order (line : Linearization) : List NodeId :=
  line.chain ++ line.unreached

/-- Whether the walk missed a node. -/
def Linearization.isUnreached (line : Linearization) (id : NodeId) : Bool :=
  line.unreached.contains id

namespace Graph

/-- The start nodes, in the order in which they were added. -/
def starts (graph : Graph) : List NodeId :=
  (graph.nodes.filter fun node => node.kind = .start).map Node.id

/-- Walk on from a node along first connections through nodes not yet visited. -/
def walk (graph : Graph) (unvisited : List NodeId) (current : NodeId) : List NodeId :=
  if here : current ∈ unvisited then
    have := length_erase_lt_of_mem here
    current ::
      match graph.firstSuccessor? current with
      | some next => walk graph (unvisited.erase current) next
      | none => []
  else []
termination_by unvisited.length

/-- The order of the steps of a graph. -/
def linearize (graph : Graph) : Linearization :=
  match graph.starts.head? with
  | none => ⟨none, graph.nodeIds, []⟩
  | some entry =>
      let chain := graph.walk graph.nodeIds entry
      ⟨some entry, chain, graph.nodeIds.filter fun id => !chain.contains id⟩

end Graph

end MotionSteps
