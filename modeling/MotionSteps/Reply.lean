import MotionSteps.Project.Snapshot
import MotionSteps.Report.Analysis
import MotionSteps.Report.Rendering
import MotionSteps.Response

/-!
# Replies to the editor

The editor hands over texts. What it is told is an object, whose status says whether it holds a
result or the failures that prevented one. The editor gets this object as a value of its own
language. The conversion is not part of the library and may refuse an object; then the editor
gets the value that stands for nothing, and no status.
-/

namespace MotionSteps.Reply

/-- A failure as the editor is told. -/
def ofFailure (failure : Failure) : Json :=
  .object [
    ("code", .string failure.code),
    ("phase", .string failure.phase.name),
    ("message", .string failure.message),
    ("node_id", .ofText? (failure.node?.map NodeId.name))]

/-- What the editor is told of a request that may have failed. -/
def ofResult {α : Type} (members : α → Json.Members) : Except Failure α → Json
  | .ok value => .object (("status", .string "success") :: members value)
  | .error failure =>
      .object [("status", .string "errors"), ("errors", .array [ofFailure failure])]

/-- The members that hold a report: its data and its text. -/
def reportMembers (report : Report) : Json.Members :=
  [("report", report.toJson), ("text", .string report.render)]

/-- What is told when the text of a project is compiled under the text of settings. -/
def compile (project settings : String) : Json :=
  ofResult Sequence.members do
    let settings ← Settings.parse settings
    let graph ← Graph.restore project
    graph.compile settings

/-- What is told when the text of a project is analyzed. -/
def diagnose (project : String) : Json :=
  ofResult reportMembers do
    let graph ← Graph.restore project
    graph.analyze

/-- What is told when a generated response is turned into a program. -/
def ingest (response : String) : Json :=
  ofResult Sequence.members (Response.ingest response {})

end MotionSteps.Reply

namespace MotionSteps

/-- A way to turn data into values of the editor's language. Some data it may refuse. -/
structure Conversion (Value : Type) where
  /-- The value that stands for nothing. -/
  nothing : Value
  convert? : Json → Option Value

namespace Editor

variable {Value : Type}

/-- The value that the editor gets for what it is told. -/
def handOver (conversion : Conversion Value) (told : Json) : Value :=
  (conversion.convert? told).getD conversion.nothing

/-- Compile the text of a project under the text of settings. -/
def compile (conversion : Conversion Value) (project settings : String) : Value :=
  handOver conversion (Reply.compile project settings)

/-- Analyze the text of a project. -/
def diagnose (conversion : Conversion Value) (project : String) : Value :=
  handOver conversion (Reply.diagnose project)

/-- Turn a generated response into a program. -/
def ingest (conversion : Conversion Value) (response : String) : Value :=
  handOver conversion (Reply.ingest response)

end Editor

end MotionSteps
