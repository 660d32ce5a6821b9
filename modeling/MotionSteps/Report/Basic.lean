import MotionSteps.Program.Basic
import MotionSteps.Report.Finding

/-!
# Diagnostic reports

A report describes each step of a program and where its node leads, counts the
steps of each kind, and lists what was found suspicious. A graph passes when
nothing was found.
-/

namespace MotionSteps

/-- Where the output port of a node leads. -/
inductive Outgoing where
  | noPort
  | unconnected
  /-- The step to which the first connection leads, and the number of connections. -/
  | connected (target : String) (connections : Nat)
  deriving DecidableEq, Repr

/-- What a report says about one step. -/
structure StepEntry where
  stepId : String
  kind : StepKind
  label : String
  typeLabel : String
  hasDocument : Bool
  params : Params
  outgoing : Outgoing
  deriving Repr

/-- The number of steps of a kind, by the kind's name. -/
structure KindCount where
  kind : String
  count : Nat
  deriving DecidableEq, Repr

/-- A diagnostic report. -/
structure Report where
  steps : List StepEntry
  /-- Kinds stand in the order in which they first appear. -/
  counts : List KindCount
  warnings : List Diagnostic
  errors : List Diagnostic
  deriving Repr

/-- A number of things as JSON. -/
def Json.ofCount (count : Nat) : Json :=
  .number (.integer (Int.ofNat count))

namespace Outgoing

/-- Where a port leads, on one line. -/
def display : Outgoing → String
  | .noPort => "no output port"
  | .unconnected => "not connected"
  | .connected target connections =>
      if connections = 1 then "-> " ++ target
      else
        "-> " ++ target ++ " (first of " ++ Number.naturalText connections ++ " connections)"

/-- Where a port leads, as JSON. -/
def toJson : Outgoing → Json
  | .noPort => .object [("status", .string "noOutputPort")]
  | .unconnected => .object [("status", .string "unconnected")]
  | .connected target connections =>
      .object [
        ("status", .string "connected"),
        ("target", .string target),
        ("connections", .ofCount connections)]

end Outgoing

/-- What a report says about a step, as JSON. -/
def StepEntry.toJson (entry : StepEntry) : Json :=
  .object [
    ("stepId", .string entry.stepId),
    ("stepType", entry.kind.toJson),
    ("label", .string entry.label),
    ("rawType", .string entry.typeLabel),
    ("hasParams", .bool entry.hasDocument),
    ("params", entry.params.toJson),
    ("outgoing", entry.outgoing.toJson)]

/-- A count as JSON. -/
def KindCount.toJson (count : KindCount) : Json :=
  .object [("stepType", .string count.kind), ("count", .ofCount count.count)]

namespace Report

/-- Whether nothing was found. -/
def passed (report : Report) : Bool :=
  report.warnings.isEmpty && report.errors.isEmpty

/-- Everything that was found, warnings first. -/
def findings (report : Report) : List Diagnostic :=
  report.warnings ++ report.errors

/-- Whether something with a code was found. -/
def hasCode (report : Report) (code : String) : Bool :=
  report.findings.any fun diagnostic => diagnostic.finding.code == code

/-- What was found about a step. -/
def findingsFor (report : Report) (stepId : String) : List Diagnostic :=
  report.findings.filter fun diagnostic =>
    diagnostic.place.any fun place => place.step == stepId

/-- A report as JSON. -/
def toJson (report : Report) : Json :=
  .object [
    ("steps", .array (report.steps.map StepEntry.toJson)),
    ("typeCounts", .array (report.counts.map KindCount.toJson)),
    ("warnings", .array (report.warnings.map Diagnostic.toJson)),
    ("errors", .array (report.errors.map Diagnostic.toJson))]

end Report

end MotionSteps
