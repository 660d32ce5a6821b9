import MotionSteps.Graph.Basic
import MotionSteps.Json.Fault

/-!
# Failures

What can go wrong on the way from a text or an edit to a result, with the code,
the phase and the wording under which each failure is reported. Bad parameter data
and an odd topology are no failures: they are findings of the report.
-/

namespace MotionSteps

/-- The part of the work in which something failed. -/
inductive Phase where
  | parse
  | graph
  | compile
  | ingest
  deriving DecidableEq, Repr

/-- The name of a phase. -/
def Phase.name : Phase → String
  | .parse => "Parse"
  | .graph => "Graph"
  | .compile => "Compile"
  | .ingest => "Ingest"

/-- Why there is no result. -/
inductive Failure where
  /-- The text is not a project file. -/
  | project (error : Json.ReadError)
  /-- The text does not hold compile settings. -/
  | settings (error : Json.ReadError)
  /-- The graph has no nodes. -/
  | emptyGraph
  /-- There is no JSON object in a generated text. -/
  | noObject
  /-- The JSON object in a generated text is not a sequence. -/
  | response (error : Json.ReadError)
  /-- An edit of the graph was refused. -/
  | edit (error : GraphError)
  deriving Repr

namespace Failure

/-- The code of a failure. -/
def code : Failure → String
  | .project _ => "P001"
  | .settings _ => "P002"
  | .emptyGraph => "C001"
  | .noObject => "I001"
  | .response _ => "I002"
  | .edit error => error.code

/-- The phase to which a failure belongs. -/
def phase : Failure → Phase
  | .project _ | .settings _ => .parse
  | .emptyGraph => .compile
  | .noObject | .response _ => .ingest
  | .edit _ => .graph

/-- The wording of a failure. -/
def message : Failure → String
  | .project error => "Failed to parse project JSON: " ++ error.message
  | .settings error => "Failed to parse compile options: " ++ error.message
  | .emptyGraph => "Nothing to compile: the graph has no nodes"
  | .noObject => "No JSON object found in generated text"
  | .response error => "Generated JSON is not a sequence: " ++ error.message
  | .edit error => error.message

/-- The node that a failure is about. -/
def node? : Failure → Option NodeId
  | .edit error => some error.node
  | _ => none

/-- A failure on one line: phase and code, the wording, and the node if there is
one. -/
def display (failure : Failure) : String :=
  "[" ++ failure.phase.name ++ ":" ++ failure.code ++ "] " ++ failure.message ++
    match failure.node? with
    | some node => " (node '" ++ node.name ++ "')"
    | none => ""

end Failure

end MotionSteps
