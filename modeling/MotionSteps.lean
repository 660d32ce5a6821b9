import MotionSteps.Text.Blank
import MotionSteps.Text.Uppercase
import MotionSteps.Text.Quoted
import MotionSteps.Number.Dyadic
import MotionSteps.Number.Shortest
import MotionSteps.Number.Text
import MotionSteps.Number.Decimal
import MotionSteps.Program.Compilation
import MotionSteps.Project.Snapshot
import MotionSteps.Reply
import MotionSteps.Main
import MotionSteps.Graph.Edit
import MotionSteps.Graph.Walk
import MotionSteps.Graph.Reach
import MotionSteps.Json.Reader.Record
import MotionSteps.Proofs.Report.Passing
import MotionSteps.Proofs.Graph.ImpliedPorts
import MotionSteps.Proofs.Graph.Retired
import MotionSteps.Proofs.Project.RoundTrip
import MotionSteps.Proofs.Json.Token
import MotionSteps.Proofs.Response.Identifiers
import MotionSteps.Proofs.Json.RoundTrip
import MotionSteps.Proofs.Json.Readable
import MotionSteps.Proofs.Step.Kind
import MotionSteps.Proofs.Step.RoundTrip
import MotionSteps.Proofs.Response.RoundTrip
import MotionSteps.Proofs.Response.Ingestion
import MotionSteps.Proofs.Response.Compilation
import MotionSteps.Proofs.Project.Reading
import MotionSteps.Proofs.Graph.Arena
import MotionSteps.Proofs.Graph.Lists
import MotionSteps.Proofs.Report.Counts
import MotionSteps.Proofs.Report.Entries
import MotionSteps.Proofs.Report.Cycles
import MotionSteps.Proofs.Report.Revisit
import MotionSteps.Proofs.Report.Terminals
import MotionSteps.Proofs.Step.Resolution
import MotionSteps.Proofs.Graph.Renaming
import MotionSteps.Proofs.Program.Alike
import MotionSteps.Proofs.Graph.Handles
import MotionSteps.Proofs.Project.Ports
import MotionSteps.Proofs.Graph.Cycles
import MotionSteps.Proofs.Report.Findings
import MotionSteps.Proofs.Report.Placement
import MotionSteps.Proofs.Step.Wrapping
import MotionSteps.Proofs.Project.Contents
import MotionSteps.Proofs.Report.Documents
import MotionSteps.Proofs.Program.Canonical
import MotionSteps.Proofs.Step.Integers
import MotionSteps.Proofs.Report.Locality
import MotionSteps.Proofs.Report.Attribution
import MotionSteps.Proofs.Response.Object
import MotionSteps.Proofs.Project.Spellings
import MotionSteps.Proofs.Step.Ports
import MotionSteps.Proofs.Json.Faults
import MotionSteps.Proofs.Text.Lines
import MotionSteps.Proofs.Report.Wording
import MotionSteps.Proofs.Report.Lines
import MotionSteps.Proofs.Project.Inline
import MotionSteps.Proofs.Graph.Reachability
import MotionSteps.Proofs.Json.Soundness
import MotionSteps.Proofs.Json.Trimming
import MotionSteps.Proofs.Graph.Labels
import MotionSteps.Proofs.CommandLine.Surfaces
