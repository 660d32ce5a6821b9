import MotionSteps.Report.Basic

/-!
# Reports as plain text

The text of a report is a list of lines. Sections are headed by a name in brackets,
their lines are indented, and a blank line follows each.
-/

namespace MotionSteps

/-- A line that stands inside a number of sections. -/
def indented (level : Nat) (line : String) : String :=
  String.ofList (List.replicate (2 * level) ' ') ++ line

/-- The lines about one step. -/
def StepEntry.lines (entry : StepEntry) : List String := [
  indented 1 (entry.stepId ++ " " ++ entry.kind.name ++ " \"" ++ entry.label ++ "\" (raw: " ++
    entry.typeLabel ++ ")"),
  indented 2 ("parameters: " ++ if entry.hasDocument then "present" else "none"),
  indented 2 ("resolved: " ++ entry.params.toJson.compact),
  indented 2 ("outgoing: " ++ entry.outgoing.display)]

/-- The line about a kind of step. -/
def KindCount.line (count : KindCount) : String :=
  indented 1 (count.kind ++ ": " ++ Number.naturalText count.count)

/-- The section that lists numbered diagnostics. -/
def Diagnostic.section (title : String) (diagnostics : List Diagnostic) : List String :=
  let heading := "[" ++ title ++ "] (" ++ Number.naturalText diagnostics.length ++ ")"
  let body :=
    if diagnostics.isEmpty then [indented 1 "(none)"]
    else
      diagnostics.zipIdx.map fun (diagnostic, index) =>
        indented 1 (Number.naturalText (index + 1) ++ ". " ++ diagnostic.display)
  heading :: body ++ [""]

namespace Report

/-- The last line of a report. -/
def verdict (report : Report) : String :=
  if report.passed then "Result: PASS"
  else
    "Result: FAIL (warnings: " ++ Number.naturalText report.warnings.length ++ ", errors: " ++
      Number.naturalText report.errors.length ++ ")"

/-- The lines of a report. -/
def lines (report : Report) : List String :=
  ["=== Sequence Diagnostics ===", "", "[Steps]"] ++
    report.steps.flatMap StepEntry.lines ++
    ["", "[Type Counts]"] ++
    report.counts.map KindCount.line ++
    [""] ++
    Diagnostic.section "Warnings" report.warnings ++
    Diagnostic.section "Errors" report.errors ++
    [report.verdict]

/-- The text of a report. -/
def render (report : Report) : String :=
  String.join (report.lines.map fun line => line ++ "\n")

end Report

end MotionSteps
