import MotionSteps.Graph.Basic
import MotionSteps.Step.Document

/-!
# Findings

What the analysis of a graph may find suspicious, with the code, the severity and
the wording of each finding. A finding is about one step and its node, or about the
graph as a whole.
-/

namespace MotionSteps

/-- How bad a finding is. -/
inductive Severity where
  | warning
  | error
  deriving DecidableEq, Repr

/-- The name of a severity. -/
def Severity.name : Severity → String
  | .warning => "warning"
  | .error => "error"

/-- Something suspicious. -/
inductive Finding where
  /-- No node starts the program. -/
  | noStart
  /-- Several nodes start the program. -/
  | severalStarts (count : Nat)
  /-- A step has no parameter document. -/
  | noDocument
  /-- The parameter document of a step is unusable. -/
  | malformedDocument (fault : DocumentFault)
  /-- A field has candidates, none of which converts. -/
  | invalidField (field : String) (found : Json)
  /-- The kind of a step is not known. -/
  | unknownKind (name : String)
  /-- A motion names no axis. -/
  | emptyAxis
  /-- A motion goes to position zero. -/
  | zeroPosition
  /-- A motion has no speed. -/
  | zeroSpeed
  /-- A wait does not last. -/
  | zeroDelay
  /-- A counter has no name. -/
  | unnamedCounter
  /-- A jump leads nowhere. -/
  | emptyJump
  /-- The walk from the start misses a node, which an ignored branch may still reach. -/
  | unconnected (branch : Bool)
  /-- Several connections leave a node. -/
  | fanOut (connections : Nat)
  /-- Connections run in a circle through some steps. -/
  | cycle (steps : List String)
  deriving Repr

namespace Finding

/-- The code of a finding. Those of warnings begin with W, those of errors with E. -/
def code : Finding → String
  | .noStart => "W001"
  | .noDocument => "W002"
  | .emptyAxis => "W003"
  | .zeroPosition => "W004"
  | .zeroSpeed => "W005"
  | .zeroDelay => "W006"
  | .unnamedCounter => "W007"
  | .unknownKind _ => "W008"
  | .cycle _ => "W009"
  | .fanOut _ => "W010"
  | .severalStarts _ => "W011"
  | .invalidField .. => "W012"
  | .unconnected _ => "E001"
  | .emptyJump => "E002"
  | .malformedDocument _ => "E003"

/-- How bad a finding is. -/
def severity : Finding → Severity
  | .unconnected _ | .emptyJump | .malformedDocument _ => .error
  | _ => .warning

/-- The wording of a finding. -/
def message : Finding → String
  | .noStart => "No START node; steps follow graph order"
  | .severalStarts count =>
      Number.naturalText count ++ " START nodes found; linearization starts at the first one"
  | .noDocument => "Step has no parameter data; defaults used"
  | .malformedDocument fault => "Parameter data could not be parsed: " ++ fault.description
  | .invalidField field found =>
      "Field '" ++ field ++ "' has invalid value " ++ found.compact ++ "; default used"
  | .unknownKind name => "Unknown step type '" ++ name ++ "'"
  | .emptyAxis => "MOTION axis is empty"
  | .zeroPosition => "MOTION position is 0"
  | .zeroSpeed => "MOTION speed is 0"
  | .zeroDelay => "WAIT delay is 0"
  | .unnamedCounter => "COUNTER name is empty"
  | .emptyJump => "GOTO target is empty"
  | .unconnected true =>
      "Unconnected node: only reachable from START through an ignored branch"
  | .unconnected false => "Unconnected node: not reachable from START"
  | .fanOut connections =>
      "Output has " ++ Number.naturalText connections ++
        " connections; only the first is followed"
  | .cycle steps => "Connections form a cycle through " ++ ", ".intercalate steps

end Finding

/-- The step and the node that a finding is about. -/
structure Place where
  step : String
  node : NodeId
  deriving DecidableEq, Repr

/-- A finding and what it is about, if not the graph as a whole. -/
structure Diagnostic where
  finding : Finding
  place : Option Place
  deriving Repr

namespace Diagnostic

/-- A diagnostic on one line. -/
def display (diagnostic : Diagnostic) : String :=
  "[" ++ diagnostic.finding.code ++ "] " ++
    (match diagnostic.place with
      | some place => place.step ++ ": "
      | none => "") ++ diagnostic.finding.message

/-- A diagnostic as JSON. -/
def toJson (diagnostic : Diagnostic) : Json :=
  .object [
    ("code", .string diagnostic.finding.code),
    ("severity", .string diagnostic.finding.severity.name),
    ("message", .string diagnostic.finding.message),
    ("stepId", match diagnostic.place with
      | some place => .string place.step
      | none => .null),
    ("node", match diagnostic.place with
      | some place => .number (.integer (Int.ofNat place.node.index))
      | none => .null)]

end Diagnostic

end MotionSteps
