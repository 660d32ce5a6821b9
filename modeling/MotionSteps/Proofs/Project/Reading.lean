import MotionSteps.Project.File
import MotionSteps.Proofs.Json.Numbers

/-!
# Project files are read as they were written

The text of a project file is read as that file, whatever its strings are and however many
nodes and connections it lists. A document that is a text keeps apart from no document, even
if the text is empty or spells null. Nothing is asked of a connection but that its indices
are integers of 64 bits, and nothing of a node but that its coordinates come back from their
own texts.
-/

namespace MotionSteps.Project

open Json

/-- The coordinates of a node are read back as they were written. -/
structure FileNode.PositionReturns (node : FileNode) : Prop where
  x : (Number.float node.x).ReadsBack
  y : (Number.float node.y).ReadsBack

/-- The indices of a connection are signed integers of 64 bits. -/
structure FileConnection.Fits (connection : FileConnection) : Prop where
  source_least : MotionSteps.Number.integerMin ≤ connection.source
  source_greatest : connection.source ≤ MotionSteps.Number.integerMax
  target_least : MotionSteps.Number.integerMin ≤ connection.target
  target_greatest : connection.target ≤ MotionSteps.Number.integerMax

/-- A document is read as the text that it is, and null as none. -/
theorem reads_document (document : Option String) (limit : Nat) :
    Reads ((Reader.value limit).map documentText) (.ofText? document) document := by
  cases document with
  | none => exact (Reads.null limit).map documentText
  | some text => exact (Reads.text text limit).map documentText

theorem FileNode.toJson_eq (node : FileNode) :
    node.toJson = .object [
      ("nodeType", .string node.typeLabel),
      ("originalLabel", .string node.label),
      ("x", .number (.float node.x)),
      ("y", .number (.float node.y)),
      ("jsonData", .ofText? node.document)] := by
  unfold FileNode.toJson
  cases node.document <;> rfl

theorem FileNode.reads (node : FileNode) (returns : node.PositionReturns) :
    Reads FileNode.form.reader node.toJson node := by
  have absorbed : Absorbs FileNode.form.member ⟨[], FileNode.form.blank⟩
      [("nodeType", .string node.typeLabel), ("originalLabel", .string node.label),
        ("x", .number (.float node.x)), ("y", .number (.float node.y)),
        ("jsonData", .ofText? node.document)]
      ⟨["jsonData", "y", "x", "originalLabel", "nodeType"], node⟩ :=
    .cons rfl (((Reads.string node.typeLabel).map _).map _)
      (.cons rfl (((Reads.string node.label).map _).map _)
        (.cons rfl (((Reads.float returns.x).map _).map _)
          (.cons rfl (((Reads.float returns.y).map _).map _)
            (.cons rfl (((reads_document node.document documentDepth).map _).map _) (.nil _)))))
  rw [node.toJson_eq]
  exact Reads.record absorbed rfl

theorem FileConnection.reads (connection : FileConnection) (fits : connection.Fits) :
    Reads FileConnection.form.reader connection.toJson connection := by
  have absorbed : Absorbs FileConnection.form.member ⟨[], FileConnection.form.blank⟩
      [("fromNodeIndex", .number (.integer connection.source)),
        ("toNodeIndex", .number (.integer connection.target))]
      ⟨["toNodeIndex", "fromNodeIndex"], connection⟩ :=
    .cons rfl (((Reads.integer fits.source_least fits.source_greatest).map _).map _)
      (.cons rfl (((Reads.integer fits.target_least fits.target_greatest).map _).map _) (.nil _))
  exact Reads.record absorbed rfl

/-- A list of records is read if each of them is. -/
theorem reads_list {α : Type} {reader : Reader α} {toJson : α → Json} {items : List α}
    (each : ∀ item ∈ items, Reads reader (toJson item) item) :
    Reads (Reader.array reader) (.array (items.map toJson)) items :=
  Reads.array (List.forall₂_map_left_iff.mpr (List.forall₂_same.mpr each))

namespace File

theorem reads (file : File) (positions : ∀ node ∈ file.nodes, node.PositionReturns)
    (indices : ∀ connection ∈ file.connections, connection.Fits) :
    Reads File.form.reader file.toJson file := by
  have nodes := reads_list fun node member => FileNode.reads node (positions node member)
  have connections := reads_list fun connection member =>
    FileConnection.reads connection (indices connection member)
  have absorbed : Absorbs File.form.member ⟨[], File.form.blank⟩
      [("nodes", .array (file.nodes.map FileNode.toJson)),
        ("connections", .array (file.connections.map FileConnection.toJson))]
      ⟨["connections", "nodes"], file⟩ :=
    .cons rfl ((nodes.map _).map _) (.cons rfl ((connections.map _).map _) (.nil _))
  exact Reads.record absorbed rfl

/-- A project file is read from its own text, if the coordinates of its nodes come back and
its indices are integers of 64 bits. -/
theorem parse_of_pretty (file : File) (positions : ∀ node ∈ file.nodes, node.PositionReturns)
    (indices : ∀ connection ∈ file.connections, connection.Fits) :
    File.parse file.pretty = .ok file := by
  have read : form.reader.parse file.pretty = .ok file :=
    (file.reads positions indices).parse_pretty
  rw [File.parse, read]
  rfl

/-- A file with awkward strings, with every sort of document, with indices that name no node
and with coordinates that are written in every form. -/
def awkward : File where
  nodes := [
    ⟨"jump \"Import\"\\", "", -0.0, 1e300, some ""⟩,
    ⟨"\x01\t\n", "é\x7b\x7d", 0.1, -2.5e-7, some "null"⟩,
    ⟨"", "\x7f", 12345678.9, 4503599627370497.5, none⟩,
    ⟨"START", "s", 3, 100, some "\x7b\"label\":\"\\u0000\"\x7d"⟩]
  connections := [⟨0, 1⟩, ⟨-9223372036854775808, 9223372036854775807⟩, ⟨-1, 4⟩]

theorem parse_awkward :
    (∀ node ∈ awkward.nodes, node.PositionReturns) ∧
      (∀ connection ∈ awkward.connections, connection.Fits) ∧
      File.parse awkward.pretty = .ok awkward := by
  have positions : ∀ node ∈ awkward.nodes, node.PositionReturns := by
    have returned : ∀ node ∈ awkward.nodes,
        (Number.float node.x).ReadsBack ∧ (Number.float node.y).ReadsBack := by decide +kernel
    exact fun node member => ⟨(returned node member).1, (returned node member).2⟩
  have indices : ∀ connection ∈ awkward.connections, connection.Fits := by
    have bounded : ∀ connection ∈ awkward.connections,
        MotionSteps.Number.integerMin ≤ connection.source ∧
          connection.source ≤ MotionSteps.Number.integerMax ∧
          MotionSteps.Number.integerMin ≤ connection.target ∧
          connection.target ≤ MotionSteps.Number.integerMax := by decide
    intro connection member
    obtain ⟨sourceLeast, sourceGreatest, targetLeast, targetGreatest⟩ := bounded connection member
    exact ⟨sourceLeast, sourceGreatest, targetLeast, targetGreatest⟩
  exact ⟨positions, indices, parse_of_pretty awkward positions indices⟩

end File

end MotionSteps.Project
