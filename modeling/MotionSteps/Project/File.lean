import MotionSteps.Failure
import MotionSteps.Json.Reader.Record
import MotionSteps.Json.Reader.Value
import MotionSteps.Step.Params

/-!
# Project files

A project file lists nodes and connections. A connection names its ends by their
positions in the list of nodes. The parameter document of a node is a text; older
files hold it inline as a value, which is taken as its compact text. Each field may
be spelled in two ways, and fields other than a node's type and a connection's ends
may be left out.
-/

namespace MotionSteps.Project

/-- A node of a project file. -/
structure FileNode where
  typeLabel : String
  label : String
  x : Float
  y : Float
  document : Option String
  deriving DecidableEq, Repr

/-- A connection of a project file: the positions of its ends among the nodes. -/
structure FileConnection where
  source : Int
  target : Int
  deriving DecidableEq, Repr

/-- A project file. -/
structure File where
  nodes : List FileNode
  connections : List FileConnection
  deriving DecidableEq, Repr

/-- The number of containers that may be open inside a node: the file, its list of nodes
and the node itself are open around it. -/
def documentDepth : Nat := Json.maxDepth - 3

/-- The text of a parameter document that is held as a value. -/
def documentText : Json → Option String
  | .null => none
  | .string text => some text
  | inline => some inline.compact

/-- The form of a node in JSON. -/
def FileNode.form : Json.RecordForm FileNode where
  name := "ProjectNode"
  fields := [
    .of "nodeType" ["type"] true .string fun node typeLabel => { node with typeLabel },
    .of "originalLabel" ["label"] false .string fun node label => { node with label },
    .of "x" [] false .float fun node x => { node with x },
    .of "y" [] false .float fun node y => { node with y },
    .of "jsonData" ["rawParams"] false ((Json.Reader.value documentDepth).map documentText)
      fun node document => { node with document }]
  blank := ⟨"", "", 0, 0, none⟩

/-- The form of a connection in JSON. -/
def FileConnection.form : Json.RecordForm FileConnection where
  name := "ProjectConnection"
  fields := [
    .of "fromNodeIndex" ["fromIndex"] true .integer fun connection source =>
      { connection with source },
    .of "toNodeIndex" ["toIndex"] true .integer fun connection target =>
      { connection with target }]
  blank := ⟨0, 0⟩

namespace File

/-- The form of a project file in JSON. -/
def form : Json.RecordForm File where
  name := "ProjectFile"
  fields := [
    .of "nodes" [] false (.array FileNode.form.reader) fun file nodes => { file with nodes },
    .of "connections" [] false (.array FileConnection.form.reader) fun file connections =>
      { file with connections }]
  blank := ⟨[], []⟩

/-- Read a project file. -/
def parse (text : String) : Except Failure File :=
  (form.reader.parse text).mapError .project

end File

/-- A node of a project file as JSON. -/
def FileNode.toJson (node : FileNode) : Json :=
  .object [
    ("nodeType", .string node.typeLabel),
    ("originalLabel", .string node.label),
    ("x", .number (.float node.x)),
    ("y", .number (.float node.y)),
    ("jsonData", match node.document with
      | some text => .string text
      | none => .null)]

/-- A connection of a project file as JSON. -/
def FileConnection.toJson (connection : FileConnection) : Json :=
  .object [
    ("fromNodeIndex", .number (.integer connection.source)),
    ("toNodeIndex", .number (.integer connection.target))]

/-- A project file as JSON. -/
def File.toJson (file : File) : Json :=
  .object [
    ("nodes", .array (file.nodes.map FileNode.toJson)),
    ("connections", .array (file.connections.map FileConnection.toJson))]

/-- The text of a project file. -/
def File.pretty (file : File) : String :=
  file.toJson.pretty

end MotionSteps.Project
