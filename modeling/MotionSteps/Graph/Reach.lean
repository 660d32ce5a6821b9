import MotionSteps.Graph.Basic

/-!
# Reachability and cycles

Which nodes a node leads to along connections of any rank, and which sets of nodes
lead to each other. A node on a cycle leads to itself along at least one connection,
so a connection from a node to itself makes a cycle of that node alone.
-/

namespace MotionSteps.Graph

/-- The first pending node that was not found yet is among those not found. -/
theorem mem_of_dropWhile_eq_cons {unfound pending rest : List NodeId} {id : NodeId}
    (next : (pending.dropWhile fun other => !unfound.contains other) = id :: rest) :
    id ∈ unfound := by
  have nonempty : (pending.dropWhile fun other => !unfound.contains other) ≠ [] := by
    rw [next]
    exact List.cons_ne_nil id rest
  have stopped := List.head_dropWhile_not (fun other => !unfound.contains other) nonempty
  simp only [next, List.head_cons] at stopped
  simpa using stopped

/-- The nodes found from a list of pending ones, through nodes not yet found. -/
def collect (graph : Graph) (unfound pending : List NodeId) : List NodeId :=
  match next : pending.dropWhile fun other => !unfound.contains other with
  | [] => []
  | id :: rest =>
      have := length_erase_lt_of_mem (mem_of_dropWhile_eq_cons next)
      id :: collect graph (unfound.erase id) (graph.successors id ++ rest)
termination_by unfound.length

/-- The nodes among those of the graph that a list contains, in the order in which they
were added. -/
def inOrder (graph : Graph) (found : List NodeId) : List NodeId :=
  graph.nodeIds.filter found.contains

/-- The nodes that a node leads to, itself included. -/
def reachableFrom (graph : Graph) (id : NodeId) : List NodeId :=
  graph.inOrder (graph.collect graph.nodeIds [id])

/-- The nodes that a node leads to along at least one connection. -/
def descendants (graph : Graph) (id : NodeId) : List NodeId :=
  graph.inOrder (graph.collect graph.nodeIds (graph.successors id))

/-- The sets of nodes that lead to each other and to themselves, each in the order in
which its nodes were added, and listed by their first nodes. -/
def cycles (graph : Graph) : List (List NodeId) :=
  let below := graph.nodeIds.map fun id => (id, graph.descendants id)
  below.filterMap fun (id, reached) =>
    let members := below.filterMap fun (other, back) =>
      if reached.contains other && back.contains id then some other else none
    if members.head? = some id then some members else none

/-- The connections whose two ends are nodes of the graph. -/
def edges (graph : Graph) : List Connection :=
  graph.connections.filter fun connection =>
    (graph.node? connection.source).isSome && (graph.node? connection.target).isSome

end MotionSteps.Graph
