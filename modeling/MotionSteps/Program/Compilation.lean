import MotionSteps.Failure
import MotionSteps.Graph.Walk
import MotionSteps.Program.Basic
import MotionSteps.Settings
import MotionSteps.Step.Extraction

/-!
# From a graph to a program

The steps are the nodes in step order. A step is followed by the one behind it in
that order, whatever the connections say. Only a graph without nodes has no
program: bad parameters resolve to defaults.
-/

namespace MotionSteps

/-- A step with the node it came from and what was wrong with that node's
parameters. -/
structure CompiledStep where
  node : NodeId
  step : Step
  issues : List Issue
  deriving Repr

/-- The step of a node at a position among `count` steps. -/
def Node.compiled (node : Node) (count position : Nat) : CompiledStep :=
  let resolved := node.kind.extractText node.document
  { node := node.id
    step :=
      { id := stepId position
        kind := node.kind
        params := resolved.value
        next := if position + 1 < count then some (stepId (position + 1)) else none }
    issues := resolved.issues }

namespace Graph

/-- The steps of the nodes in a line. -/
def compiledSteps (graph : Graph) (line : Linearization) : List CompiledStep :=
  line.order.zipIdx.filterMap fun (id, position) =>
    (graph.node? id).map fun node => node.compiled line.order.length position

/-- The program of a graph. -/
def compile (graph : Graph) (settings : Settings) : Except Failure Sequence :=
  if graph.isEmpty then .error .emptyGraph
  else
    .ok
      { name := settings.sequenceName
        steps := (graph.compiledSteps graph.linearize).map CompiledStep.step }

end Graph

end MotionSteps
