import MotionSteps.CommandLine.Arguments
import MotionSteps.CommandLine.Log
import MotionSteps.Project.Snapshot
import MotionSteps.Report.Analysis
import MotionSteps.Report.Rendering
import MotionSteps.Response

/-!
# The command line

A command reads one file and prints its result or writes it to another. What it does
depends on the files only through a way of reading and a way of writing, so the
same definition runs over real files and over any other store of texts.
-/

namespace MotionSteps.CommandLine

/-- Why a file cannot be read or written, in the words of the system. -/
inductive FileFault where
  | notFound
  | notText
  | other (description : String)
  deriving DecidableEq, Repr

/-- The wording of a fault. -/
def FileFault.description : FileFault → String
  | .notFound => "No such file or directory (os error 2)"
  | .notText => "stream did not contain valid UTF-8"
  | .other description => description

/-- A way of reading and of writing files. -/
structure FileAccess (m : Type → Type) where
  read : String → m (Except FileFault String)
  write : String → String → m (Except FileFault Unit)

/-- What a run of the program leaves behind besides files. -/
structure Outcome where
  code : Nat
  stdout : String
  /-- What is logged of the run, in order. -/
  log : List Event
  /-- What a failed run says, behind its log. -/
  message : String
  deriving DecidableEq, Repr

namespace Outcome

/-- Everything besides the output: a line for each event of the log, and the message. How a line is
written is up to the log, which knows the time and the place. -/
def stderr (outcome : Outcome) (line : Event → String := Event.line) : String :=
  String.join (outcome.log.map line) ++ outcome.message

/-- A run that did what it was asked to. -/
def success (stdout : String) : Outcome :=
  ⟨0, stdout, [], ""⟩

/-- A run that failed. -/
def failure (message : String) : Outcome :=
  ⟨1, "", [], "Error: " ++ message ++ "\n"⟩

/-- A run whose file could not be read or written. -/
def fileFailure (action path : String) (fault : FileFault) : Outcome :=
  failure ("failed to " ++ action ++ " '" ++ path ++ "'\n\nCaused by:\n    " ++ fault.description)

/-- A run whose words were refused. -/
def usage : Outcome :=
  ⟨2, "", [], "usage: (compile | ingest) FILE [-n NAME] [-o FILE], or check FILE\n"⟩

/-- A run with other events in front of its own. -/
def behind (events : List Event) (outcome : Outcome) : Outcome :=
  { outcome with log := events ++ outcome.log }

/-- A run without a log. -/
def quiet (outcome : Outcome) : Outcome :=
  { outcome with log := [] }

end Outcome

/-- The settings under which a sequence gets a name, if one is given. -/
def settingsFor : Option String → Settings
  | some name => { sequenceName := name }
  | none => {}

/-- The result of a command: a text for the output, or a report for the reader. -/
inductive Product where
  | program (sequence : Sequence) (output : Option String)
  | diagnosis (report : Report)

/-- What is logged of restoring a project. Each of its connections is loaded or dropped. -/
def restoreEvents (text : String) : List Event :=
  match Project.File.parse text with
  | .error _ => []
  | .ok file =>
      let graph := Graph.empty.load file
      [.loaded graph.nodes.length graph.connections.length
        (file.connections.length - graph.connections.length)]

namespace Command

/-- The file that a command reads. -/
def source : Command → String
  | .compile source .. | .check source | .ingest source .. => source

/-- What a command makes of the text of its file. -/
def product (command : Command) (text : String) : Except Failure Product :=
  match command with
  | .compile _ name output => do
      let graph ← Graph.restore text
      let sequence ← graph.compile (settingsFor name)
      return .program sequence output
  | .check _ => do
      let graph ← Graph.restore text
      let report ← graph.analyze
      return .diagnosis report
  | .ingest _ name output => do
      let sequence ← Response.ingest text (settingsFor name)
      return .program sequence output

/-- The event that closes the work of a command on a text, if it comes to its end. -/
def finalEvent (command : Command) (text : String) : Except Failure Event :=
  match command with
  | .compile _ name _ => do
      let graph ← Graph.restore text
      let sequence ← graph.compile (settingsFor name)
      return .compiled sequence.steps.length graph.linearize.entry sequence.name
  | .check _ => do
      let graph ← Graph.restore text
      let report ← graph.analyze
      return .diagnosed report.steps.length report.warnings.length report.errors.length
  | .ingest _ name _ => do
      let sequence ← Response.ingest text (settingsFor name)
      return .ingested sequence.steps.length sequence.name

/-- What is logged of the work of a command on a text, as far as it comes. -/
def events (command : Command) (text : String) : List Event :=
  let restored :=
    match command with
    | .compile .. | .check _ => restoreEvents text
    | .ingest .. => []
  restored ++ (command.finalEvent text).toOption.toList

end Command

variable {m : Type → Type} [Monad m]

/-- Print a product, or write it where it is to go. A report that did not pass is shown by
the code of the outcome. -/
def Product.emit (files : FileAccess m) : Product → m Outcome
  | .program sequence (some output) => do
      match ← files.write output (sequence.pretty ++ "\n") with
      | .ok () => return (Outcome.success "").behind [.written output]
      | .error fault => return .fileFailure "write" output fault
  | .program sequence none => return .success (sequence.pretty ++ "\n")
  | .diagnosis report => return ⟨if report.passed then 0 else 1, report.render, [], ""⟩

/-- End a run whose command came to a result. -/
def finish (files : FileAccess m) : Except Failure Product → m Outcome
  | .error failure => return .failure failure.display
  | .ok product => product.emit files

/-- Carry out a command, with a log of the work if it is asked for. -/
def Arguments.run (files : FileAccess m) (arguments : Arguments) : m Outcome := do
  match ← files.read arguments.command.source with
  | .error fault => return .fileFailure "read" arguments.command.source fault
  | .ok text =>
      let outcome ← finish files (arguments.command.product text)
      return if arguments.verbose then outcome.behind (arguments.command.events text)
        else outcome.quiet

/-- Run the program with the words of a command line. -/
def run (files : FileAccess m) (words : List String) : m Outcome :=
  match Arguments.parse? words with
  | some arguments => arguments.run files
  | none => return .usage

end MotionSteps.CommandLine
