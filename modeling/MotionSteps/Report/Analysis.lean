import MotionSteps.Graph.Reach
import MotionSteps.Program.Compilation
import MotionSteps.Report.Basic

/-!
# Analysis of a graph

The analysis compiles the graph and looks over its steps one by one, first at their
parameters and then at their place in the graph. The findings about the graph's
start come before those about steps, and those about cycles after them.
-/

namespace MotionSteps

/-- What an issue with the parameters of a step amounts to. A step that begins or ends
a program needs no document. -/
def Issue.finding? (kind : StepKind) : Issue → Option Finding
  | .missing => if kind.isTerminal then none else some .noDocument
  | .malformed fault => some (.malformedDocument fault)
  | .invalidField field found => some (.invalidField field found)

/-- What is suspicious about the kind of a step. -/
def StepKind.findings : StepKind → List Finding
  | .other name => [.unknownKind name]
  | _ => []

/-- What is suspicious about the values of parameters. -/
def Params.findings : Params → List Finding
  | .motion record =>
      (if (Text.trim record.axis).isEmpty then [.emptyAxis] else []) ++
        (if record.position == 0 then [.zeroPosition] else []) ++
        (if record.speed == 0 then [.zeroSpeed] else [])
  | .wait record => if record.delay = 0 then [.zeroDelay] else []
  | .counter record => if (Text.trim record.name).isEmpty then [.unnamedCounter] else []
  | .goto record => if (Text.trim record.target).isEmpty then [.emptyJump] else []
  | .linearMove _ | .relativeMove _ | .circularMove _ | .passthrough _ => []

namespace CompiledStep

/-- What is suspicious about a step by itself. -/
def findings (compiled : CompiledStep) : List Finding :=
  compiled.step.kind.findings ++
    compiled.issues.filterMap (Issue.finding? compiled.step.kind) ++
    compiled.step.params.findings

/-- The place of the findings about a step. -/
def place (compiled : CompiledStep) : Place :=
  ⟨compiled.step.id, compiled.node⟩

end CompiledStep

namespace Graph

/-- What is suspicious about the start of a graph. -/
def startFindings (graph : Graph) : List Finding :=
  match graph.starts with
  | [] => [.noStart]
  | [_] => []
  | starts => [.severalStarts starts.length]

/-- What is suspicious about the place of a node in the graph, where `reachable` are
the nodes to which the entry leads. -/
def placementFindings (graph : Graph) (line : Linearization) (reachable : List NodeId)
    (node : NodeId) : List Finding :=
  let fan := (graph.outgoing node).length
  (if line.isUnreached node then [.unconnected (reachable.contains node)] else []) ++
    (if 1 < fan then [.fanOut fan] else [])

/-- The identifier of the step that a node became. -/
def stepIdOf? (steps : List CompiledStep) (node : NodeId) : Option String :=
  (steps.find? fun compiled => compiled.node == node).map fun compiled => compiled.step.id

/-- Where a node's output port leads. -/
def outgoingOf (graph : Graph) (steps : List CompiledStep) (node : Node) : Outgoing :=
  if node.ports.output then
    match graph.outgoing node.id with
    | [] => .unconnected
    | first :: others =>
        .connected ((stepIdOf? steps first.target).getD first.target.name) (others.length + 1)
  else .noPort

/-- The diagnostic about a cycle, at the first of its nodes. -/
def cycleDiagnostic? (steps : List CompiledStep) (cycle : List NodeId) : Option Diagnostic := do
  let names := cycle.filterMap (stepIdOf? steps)
  let node ← cycle.head?
  let step ← names.head?
  return ⟨.cycle names, some ⟨step, node⟩⟩

/-- The entry of a step in the report. -/
def entryOf? (graph : Graph) (steps : List CompiledStep) (compiled : CompiledStep) :
    Option StepEntry :=
  (graph.node? compiled.node).map fun node =>
    { stepId := compiled.step.id
      kind := compiled.step.kind
      label := node.label
      typeLabel := node.typeLabel
      hasDocument := node.hasDocument
      params := compiled.step.params
      outgoing := graph.outgoingOf steps node }

end Graph

namespace KindCount

/-- Count one more step of a kind. -/
def add (kind : String) : List KindCount → List KindCount
  | [] => [⟨kind, 1⟩]
  | counted :: rest =>
      if counted.kind = kind then ⟨kind, counted.count + 1⟩ :: rest
      else counted :: add kind rest

/-- The number of times that each kind occurs, in the order in which they first do. -/
def tally (kinds : List String) : List KindCount :=
  kinds.foldl (fun counts kind => add kind counts) []

end KindCount

namespace Graph

/-- Everything suspicious about a graph, in the order in which it is reported. -/
def diagnostics (graph : Graph) : List Diagnostic :=
  let line := graph.linearize
  let steps := graph.compiledSteps line
  let reachable := (line.entry.map graph.reachableFrom).getD []
  let ofStep (compiled : CompiledStep) : List Diagnostic :=
    (compiled.findings ++ graph.placementFindings line reachable compiled.node).map
      fun finding => ⟨finding, some compiled.place⟩
  graph.startFindings.map (⟨·, none⟩) ++ steps.flatMap ofStep ++
    graph.cycles.filterMap (cycleDiagnostic? steps)

/-- The report on a graph. Like its program, a graph without nodes has none. -/
def analyze (graph : Graph) : Except Failure Report :=
  if graph.isEmpty then .error .emptyGraph
  else
    let steps := graph.compiledSteps graph.linearize
    let (warnings, errors) :=
      graph.diagnostics.partition fun diagnostic => diagnostic.finding.severity = .warning
    .ok
      { steps := steps.filterMap (graph.entryOf? steps)
        counts := KindCount.tally (steps.map fun compiled => compiled.step.kind.name)
        warnings
        errors }

end Graph

end MotionSteps
