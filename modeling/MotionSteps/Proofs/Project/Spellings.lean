import MotionSteps.Proofs.Json.Records
import MotionSteps.Proofs.Project.Reading

/-!
# The spellings of a project file

A project file may be written in many ways. The members of its objects stand in any order, under
either name of a field, among members of other names, and what is left at its default may be left
out. `File.SpelledBy` says which texts are one of these, and every one of them is read as the file.
A text in which a node or a connection gives one of its fields twice is refused, wherever the two
stand and whichever names they use.
-/

namespace MotionSteps.Project

open Json

/-! ## What is written in a field -/

/-- A text is written as a string that spells it. -/
def SpellsText (text : String) (value : List Token) : Prop :=
  ∃ inside, value = [stringToken inside] ∧ Spells inside text.toList

/-- A coordinate is written as it is printed, or as another numeral that comes back as it. -/
inductive SpellsCoordinate (x : Float) : List Token → Prop where
  | printed : SpellsCoordinate x [(Number.float x).text.toList]
  | numeral {numeral : Token} {number : Number} (isNumeral : IsNumeral numeral)
      (value : Numeral.read numeral = .ok (number, [])) (same : number.toFloat = x) :
      SpellsCoordinate x [numeral]

/-- An index is written in one way only. -/
def SpellsIndex (index : Int) (value : List Token) : Prop :=
  value = [(Number.integer index).text.toList]

/-- A document is written as a string, and no document as null. -/
inductive SpellsDocument : Option String → List Token → Prop where
  | none : SpellsDocument none [['n', 'u', 'l', 'l']]
  | some {text : String} {inside : List Char} (spells : Spells inside text.toList) :
      SpellsDocument (some text) [stringToken inside]

/-- The slots of a node. Only its type must be written. -/
def nodeSlots : List (Slot FileNode) := [
  ⟨["nodeType", "type"], fun node => SpellsText node.typeLabel, fun _ => False⟩,
  ⟨["originalLabel", "label"], fun node => SpellsText node.label, fun node => node.label = ""⟩,
  ⟨["x"], fun node => SpellsCoordinate node.x, fun node => node.x = 0⟩,
  ⟨["y"], fun node => SpellsCoordinate node.y, fun node => node.y = 0⟩,
  ⟨["jsonData", "rawParams"], fun node => SpellsDocument node.document,
    fun node => node.document = none⟩]

/-- The slots of a connection. Both must be written. -/
def connectionSlots : List (Slot FileConnection) := [
  ⟨["fromNodeIndex", "fromIndex"], fun connection => SpellsIndex connection.source,
    fun _ => False⟩,
  ⟨["toNodeIndex", "toIndex"], fun connection => SpellsIndex connection.target, fun _ => False⟩]

/-- A list of records is written as an array of objects. -/
def SpellsList {ρ : Type} (slots : List (Slot ρ)) (records : List ρ) (value : List Token) : Prop :=
  ∃ objects : List (List SpelledMember), value = arrayTokens (objects.map objectTokens) ∧
    List.Forall₂ (Renders slots) records objects

/-- The slots of a project file. -/
def fileSlots : List (Slot File) := [
  ⟨["nodes"], fun file => SpellsList nodeSlots file.nodes, fun file => file.nodes = []⟩,
  ⟨["connections"], fun file => SpellsList connectionSlots file.connections,
    fun file => file.connections = []⟩]

/-- A text that writes a project file. -/
def File.SpelledBy (file : File) (text : String) : Prop :=
  ∃ members, Renders fileSlots file members ∧ Spaced (objectTokens members) text.toList

/-! ## What a field takes -/

theorem SpellsText.takes {text : String} {value : List Token} (spells : SpellsText text value) :
    Takes Reader.string value text := by
  obtain ⟨inside, rfl, spells⟩ := spells
  exact .string spells

theorem SpellsCoordinate.takes {x : Float} {value : List Token}
    (spells : SpellsCoordinate x value) (returns : (Number.float x).ReadsBack) :
    Takes Reader.float value x := by
  cases spells with
  | printed =>
      have read := Number.read_text returns delimited_nil
      rw [List.append_nil] at read
      exact .float (Number.begins_text (Number.isFinite_of_reread? returns)) read
  | numeral isNumeral read same => exact same ▸ .float isNumeral.begins read

theorem SpellsIndex.takes {index : Int} {value : List Token} (spells : SpellsIndex index value)
    (least : MotionSteps.Number.integerMin ≤ index)
    (greatest : index ≤ MotionSteps.Number.integerMax) : Takes Reader.integer value index := by
  obtain rfl := spells
  have returns := Number.readsBack_integer least (by
    have : MotionSteps.Number.integerMax < Numeral.significandLimit := by decide
    omega)
  have read := Number.read_text returns delimited_nil
  rw [List.append_nil] at read
  exact .integer (Number.begins_text trivial) read greatest

theorem SpellsDocument.takes {document : Option String} {value : List Token}
    (spells : SpellsDocument document value) (limit : Nat) :
    Takes ((Reader.value limit).map documentText) value document := by
  cases spells with
  | none => exact (Takes.null limit).map documentText
  | some spells => exact (Takes.text spells limit).map documentText

/-! ## What has become of a record -/

/-- What is given or is its default anyway. -/
theorem ite_eq_of_or {α : Type} {given : Prop} [Decidable given] {value default : α}
    (settled : given ∨ value = default) : (if given then value else default) = value := by
  rcases settled with was | same
  · exact if_pos was
  · rw [same, ite_self]

/-- A node of which some fields are given. -/
def FileNode.progress (node : FileNode) (given : List String) : FileNode where
  typeLabel := if "nodeType" ∈ given then node.typeLabel else ""
  label := if "originalLabel" ∈ given then node.label else ""
  x := if "x" ∈ given then node.x else 0
  y := if "y" ∈ given then node.y else 0
  document := if "jsonData" ∈ given then node.document else none

theorem FileNode.fills (node : FileNode) (returns : node.PositionReturns) :
    FileNode.form.Fills nodeSlots node node.progress where
  distinct := by decide
  fields := by
    refine .cons ?_ (.cons ?_ (.cons ?_ (.cons ?_ (.cons ?_ .nil))))
    · exact Field.fills_of rfl (fun _ => SpellsText.takes) (fun given => by simp [progress]) nofun
    · exact Field.fills_of rfl (fun _ => SpellsText.takes) (fun given => by simp [progress])
        fun _ => rfl
    · exact Field.fills_of rfl (fun _ spells => SpellsCoordinate.takes spells returns.x)
        (fun given => by simp [progress]) fun _ => rfl
    · exact Field.fills_of rfl (fun _ spells => SpellsCoordinate.takes spells returns.y)
        (fun given => by simp [progress]) fun _ => rfl
    · exact Field.fills_of rfl (fun _ spells => SpellsDocument.takes spells documentDepth)
        (fun given => by simp [progress]) fun _ => rfl
  blank := rfl
  complete := by
    intro given settled
    simp only [form, nodeSlots, List.forall₂_cons, List.forall₂_nil_left_iff, and_true] at settled
    obtain ⟨typeLabel, label, x, y, document⟩ := settled
    cases node
    simp only [progress, FileNode.mk.injEq]
    exact ⟨ite_eq_of_or (.inl (typeLabel.resolve_right id)), ite_eq_of_or label, ite_eq_of_or x,
      ite_eq_of_or y, ite_eq_of_or document⟩

/-- A connection of which some fields are given. -/
def FileConnection.progress (connection : FileConnection) (given : List String) :
    FileConnection where
  source := if "fromNodeIndex" ∈ given then connection.source else 0
  target := if "toNodeIndex" ∈ given then connection.target else 0

theorem FileConnection.fills (connection : FileConnection) (fits : connection.Fits) :
    FileConnection.form.Fills connectionSlots connection connection.progress where
  distinct := by decide
  fields := by
    refine .cons ?_ (.cons ?_ .nil)
    · exact Field.fills_of rfl
        (fun _ spells => SpellsIndex.takes spells fits.source_least fits.source_greatest)
        (fun given => by simp [progress]) nofun
    · exact Field.fills_of rfl
        (fun _ spells => SpellsIndex.takes spells fits.target_least fits.target_greatest)
        (fun given => by simp [progress]) nofun
  blank := rfl
  complete := by
    intro given settled
    simp only [form, connectionSlots, List.forall₂_cons, List.forall₂_nil_left_iff,
      and_true] at settled
    obtain ⟨source, target⟩ := settled
    cases connection
    simp only [progress, FileConnection.mk.injEq]
    exact ⟨ite_eq_of_or (.inl (source.resolve_right id)),
      ite_eq_of_or (.inl (target.resolve_right id))⟩

/-- A list of records is taken if each of them is, however it is written. -/
theorem SpellsList.takes {ρ : Type} {form : RecordForm ρ} {slots : List (Slot ρ)}
    {records : List ρ} {value : List Token} (spells : SpellsList slots records value)
    {progress : ρ → List String → ρ}
    (fills : ∀ record ∈ records, form.Fills slots record (progress record)) :
    Takes (Reader.array form.reader) value records := by
  obtain ⟨objects, rfl, each⟩ := spells
  refine .array (List.forall₂_map_left_iff.mpr ?_)
  induction each with
  | nil => exact .nil
  | @cons record members records objects renders _ inductionHypothesis =>
      obtain ⟨one, others⟩ := List.forall_mem_cons.mp fills
      exact .cons ⟨begins_objectTokens members, RecordForm.takes_of_renders one renders⟩
        (inductionHypothesis others)

namespace File

/-- A project file of which some fields are given. -/
def progress (file : File) (given : List String) : File where
  nodes := if "nodes" ∈ given then file.nodes else []
  connections := if "connections" ∈ given then file.connections else []

theorem fills (file : File) (positions : ∀ node ∈ file.nodes, node.PositionReturns)
    (indices : ∀ connection ∈ file.connections, connection.Fits) :
    form.Fills fileSlots file file.progress where
  distinct := by decide
  fields := by
    refine .cons ?_ (.cons ?_ .nil)
    · exact Field.fills_of rfl
        (fun _ spells => SpellsList.takes spells fun node listed =>
          node.fills (positions node listed))
        (fun given => by simp [progress]) fun _ => rfl
    · exact Field.fills_of rfl
        (fun _ spells => SpellsList.takes spells fun connection listed =>
          connection.fills (indices connection listed))
        (fun given => by simp [progress]) fun _ => rfl
  blank := rfl
  complete := by
    intro given settled
    simp only [form, fileSlots, List.forall₂_cons, List.forall₂_nil_left_iff, and_true] at settled
    obtain ⟨nodes, connections⟩ := settled
    cases file
    simp only [progress, File.mk.injEq]
    exact ⟨ite_eq_of_or nodes, ite_eq_of_or connections⟩

end File

/-! ## Repeated fields -/

/-- An object of a list writes one of its fields twice. -/
def ListRepeats {ρ : Type} (slots : List (Slot ρ)) (list : List Token) : Prop :=
  ∃ items members, list = arrayTokens items ∧ (∀ tokens ∈ items, IsValue tokens) ∧
    objectTokens members ∈ items ∧ AreMembers members ∧ GivesTwice slots members

/-- A node or a connection of a text writes one of its fields twice. The two lists of the text
are members of an object, or the first items of an array. -/
inductive RepeatsField : List Token → Prop where
  | nodes {members : List SpelledMember} {member : SpelledMember}
      (areMembers : AreMembers members) (listed : member ∈ members)
      (named : member.IsNamed ["nodes"]) (repeats : ListRepeats nodeSlots member.value) :
      RepeatsField (objectTokens members)
  | connections {members : List SpelledMember} {member : SpelledMember}
      (areMembers : AreMembers members) (listed : member ∈ members)
      (named : member.IsNamed ["connections"])
      (repeats : ListRepeats connectionSlots member.value) : RepeatsField (objectTokens members)
  | firstItem {nodes : List Token} {others : List (List Token)}
      (values : ∀ value ∈ nodes :: others, IsValue value)
      (repeats : ListRepeats nodeSlots nodes) : RepeatsField (arrayTokens (nodes :: others))
  | secondItem {nodes connections : List Token} {others : List (List Token)}
      (values : ∀ value ∈ nodes :: connections :: others, IsValue value)
      (repeats : ListRepeats connectionSlots connections) :
      RepeatsField (arrayTokens (nodes :: connections :: others))

theorem FileNode.skims_fields : ∀ field ∈ FileNode.form.fields, ∀ record,
    (field.read record).Skims := by
  simp only [form, List.forall_mem_cons]
  exact ⟨fun _ => Reader.Skims.string.map _, fun _ => Reader.Skims.string.map _,
    fun _ => Reader.Skims.float.map _, fun _ => Reader.Skims.float.map _,
    fun _ => ((Reader.Skims.value documentDepth).map _).map _, List.forall_mem_nil _⟩

theorem FileConnection.skims_fields : ∀ field ∈ FileConnection.form.fields, ∀ record,
    (field.read record).Skims := by
  simp only [form, List.forall_mem_cons]
  exact ⟨fun _ => Reader.Skims.integer.map _, fun _ => Reader.Skims.integer.map _,
    List.forall_mem_nil _⟩

theorem File.skims_fields : ∀ field ∈ File.form.fields, ∀ record,
    (field.read record).Skims := by
  simp only [form, List.forall_mem_cons]
  exact ⟨fun _ => (RecordForm.skims_reader FileNode.skims_fields).array.map _,
    fun _ => (RecordForm.skims_reader FileConnection.skims_fields).array.map _,
    List.forall_mem_nil _⟩

/-- A list is not accepted if one of its objects writes a field twice. -/
theorem ListRepeats.not_accepts {ρ : Type} {form : RecordForm ρ} {slots : List (Slot ρ)}
    {list : List Token} (repeats : ListRepeats slots list) (distinct : form.Distinct)
    (skims : ∀ field ∈ form.fields, ∀ record, (field.read record).Skims)
    (names : form.fields.map Field.names = slots.map Slot.names) :
    ¬Accepts (Reader.array form.reader) list := by
  obtain ⟨items, members, rfl, values, listed, areMembers, twice⟩ := repeats
  intro accepts
  exact RecordForm.not_accepts_of_givesTwice distinct skims names areMembers twice
    (Accepts.of_array (RecordForm.skims_reader skims) values accepts _ listed)

namespace File

/-- A text that writes a field of a node or a connection twice is not accepted. -/
theorem not_accepts_of_repeatsField {tokens : List Token} (repeats : RepeatsField tokens) :
    ¬Accepts form.reader tokens := by
  intro accepts
  cases repeats with
  | @nodes members member areMembers listed named repeats =>
      have once := RecordForm.accepts_of_object (by decide) skims_fields areMembers accepts
        (List.mem_cons_self)
      obtain ⟨record, accepted⟩ := once.1 member listed named
      exact repeats.not_accepts (by decide) FileNode.skims_fields rfl accepted.of_map
  | @connections members member areMembers listed named repeats =>
      have once := RecordForm.accepts_of_object (by decide) skims_fields areMembers accepts
        (List.mem_cons_of_mem _ List.mem_cons_self)
      obtain ⟨record, accepted⟩ := once.1 member listed named
      exact repeats.not_accepts (by decide) FileConnection.skims_fields rfl accepted.of_map
  | firstItem values repeats =>
      have each := RecordForm.accepts_of_array skims_fields values accepts
      obtain ⟨record, accepted⟩ := each _ List.mem_cons_self
      exact repeats.not_accepts (by decide) FileNode.skims_fields rfl accepted.of_map
  | secondItem values repeats =>
      have each := RecordForm.accepts_of_array skims_fields values accepts
      obtain ⟨record, accepted⟩ := each _ (List.mem_cons_of_mem _ List.mem_cons_self)
      exact repeats.not_accepts (by decide) FileConnection.skims_fields rfl accepted.of_map

/-- Every spelling of a project file is read as that file, if the coordinates of its nodes come
back as they were written. A text in which a node or a connection writes one of its fields twice
is refused. -/
theorem parse_of_spelling (text : String) :
    (∀ file : File, (∀ node ∈ file.nodes, node.PositionReturns) →
        (∀ connection ∈ file.connections, connection.Fits) → file.SpelledBy text →
        File.parse text = .ok file) ∧
      ∀ tokens, RepeatsField tokens → Spaced tokens text.toList →
        ∃ failure, File.parse text = .error failure ∧ failure.code = "P001" := by
  constructor
  · rintro file positions indices ⟨members, renders, spaced⟩
    have takes := RecordForm.takes_of_renders (file.fills positions indices) renders
    rw [File.parse, takes.parse spaced]
    rfl
  · intro tokens repeats spaced
    cases parsed : form.reader.parse text with
    | ok file => exact absurd (Accepts.of_parse spaced parsed) (not_accepts_of_repeatsField repeats)
    | error error =>
        refine ⟨.project error, ?_, rfl⟩
        rw [File.parse, parsed]
        rfl

end File

/-! ## A file in short names -/

/-- The tokens of an object whose keys need no escapes. -/
def plainObject (pairs : List (String × List Token)) : List Token :=
  objectTokens (pairs.map fun pair => .plain pair.1 pair.2)

/-- The tokens of a text that needs no escapes. -/
def plainString (text : String) : List Token :=
  [stringToken text.toList]

/-- A node under short names with another member. Its label and one coordinate are left out. -/
def nodePairs : List (String × List Token) :=
  [("note", arrayTokens [[['n', 'u', 'l', 'l']]]), ("rawParams", plainString "null"),
    ("y", [['1', '.', '5']]), ("type", plainString "start")]

/-- A connection with its target in front. -/
def connectionPairs : List (String × List Token) :=
  [("toIndex", [['1']]), ("fromNodeIndex", [['0']])]

/-- A file with its connections in front. -/
def filePairs : List (String × List Token) :=
  [("connections", arrayTokens [plainObject connectionPairs]),
    ("nodes", arrayTokens [plainObject nodePairs])]

theorem renders_nodePairs : Renders nodeSlots ⟨"start", "", 0, 1.5, some "null"⟩
    (nodePairs.map fun pair => .plain pair.1 pair.2) := by
  have typeLabel : SpellsText "start" (plainString "start") :=
    ⟨_, rfl, spells_of_arePlain (by decide)⟩
  have printed : (Number.float 1.5).text.toList = ['1', '.', '5'] := by decide +kernel
  have y : SpellsCoordinate 1.5 [['1', '.', '5']] := printed ▸ .printed
  have document : SpellsDocument (some "null") (plainString "null") :=
    .some (spells_of_arePlain (by decide))
  have note : IsValue (arrayTokens [[['n', 'u', 'l', 'l']]]) :=
    .array (by simpa using IsValue.atom .null)
  apply renders_of_plain
  · decide
  · simpa [nodeSlots, nodePairs] using ⟨typeLabel, y, document⟩
  · simpa [nodeSlots, nodePairs] using note
  · decide
  · simp [nodeSlots, nodePairs]

theorem renders_connectionPairs : Renders connectionSlots ⟨0, 1⟩
    (connectionPairs.map fun pair => .plain pair.1 pair.2) := by
  have source : SpellsIndex 0 [['0']] := rfl
  have target : SpellsIndex 1 [['1']] := rfl
  apply renders_of_plain
  · decide
  · simpa [connectionSlots, connectionPairs] using ⟨source, target⟩
  · simp [connectionSlots, connectionPairs]
  · decide
  · simp [connectionSlots, connectionPairs]

/-- What the pairs of a file write. -/
def shortFile : File where
  nodes := [⟨"start", "", 0, 1.5, some "null"⟩]
  connections := [⟨0, 1⟩]

theorem renders_filePairs :
    Renders fileSlots shortFile (filePairs.map fun pair => .plain pair.1 pair.2) := by
  have nodes : SpellsList nodeSlots [⟨"start", "", 0, 1.5, some "null"⟩]
      (arrayTokens [plainObject nodePairs]) := ⟨[_], rfl, .cons renders_nodePairs .nil⟩
  have connections : SpellsList connectionSlots [⟨0, 1⟩]
      (arrayTokens [plainObject connectionPairs]) := ⟨[_], rfl, .cons renders_connectionPairs .nil⟩
  apply renders_of_plain
  · decide
  · simpa [fileSlots, filePairs, shortFile] using ⟨nodes, connections⟩
  · simp [fileSlots, filePairs]
  · simp [fileSlots, filePairs]
  · simp [fileSlots, filePairs]

/-- A node that has its type under both names. -/
def repeatedPairs : List (String × List Token) :=
  [("type", plainString "start"), ("label", plainString "s"), ("nodeType", plainString "start")]

theorem repeatsField_repeatedPairs :
    RepeatsField (plainObject [("nodes", arrayTokens [plainObject repeatedPairs])]) := by
  have start : IsValue (plainString "start") :=
    .atom (.string (spells_of_arePlain (by decide)).isInside)
  have label : IsValue (plainString "s") :=
    .atom (.string (spells_of_arePlain (by decide)).isInside)
  have node : AreMembers (repeatedPairs.map fun pair => .plain pair.1 pair.2) :=
    areMembers_of_plain (by decide) (by simpa [repeatedPairs] using ⟨start, label, start⟩)
  have nodes : ∀ tokens ∈ [plainObject repeatedPairs], IsValue tokens :=
    List.forall_mem_singleton.mpr node.isValue
  refine .nodes (areMembers_of_plain (by decide) (List.forall_mem_singleton.mpr (.array nodes)))
    List.mem_cons_self ⟨"nodes", List.mem_cons_self, spells_of_arePlain (by decide)⟩ ?_
  have twice : GivesTwice nodeSlots (repeatedPairs.map fun pair => .plain pair.1 pair.2) :=
    ⟨_, List.mem_cons_self, .plain "type" (plainString "start"),
      .plain "nodeType" (plainString "start"), by
        simp only [repeatedPairs, List.map_cons, List.map_nil]
        exact .cons_cons _ (.cons _ (.cons_cons _ .slnil)),
      ⟨"type", by decide, spells_of_arePlain (by decide)⟩,
      ⟨"nodeType", by decide, spells_of_arePlain (by decide)⟩⟩
  exact ⟨_, _, rfl, nodes, List.mem_cons_self, node, twice⟩

/-- The text of a row of tokens with a blank in front of each. -/
def blankText (tokens : List Token) : String :=
  String.ofList (tokens.flatMap fun token => ' ' :: token)

theorem spaced_blankText (tokens : List Token) : Spaced tokens (blankText tokens).toList := by
  rw [blankText, String.toList_ofList]
  exact spaced_flatMap_cons tokens

/-- A file with members in an order of their own, under short names and among others. -/
def shortText : String :=
  " \x7b \"connections\" : [ \x7b \"toIndex\" : 1 , \"fromNodeIndex\" : 0 \x7d ] ," ++
    " \"nodes\" : [ \x7b \"note\" : [ null ] , \"rawParams\" : \"null\" , \"y\" : 1.5 ," ++
    " \"type\" : \"start\" \x7d ] \x7d"

/-- A file whose only node has its type under both names. -/
def repeatedText : String :=
  " \x7b \"nodes\" : [ \x7b \"type\" : \"start\" , \"label\" : \"s\" ," ++
    " \"nodeType\" : \"start\" \x7d ] \x7d"

theorem parse_shortText :
    (∀ node ∈ shortFile.nodes, node.PositionReturns) ∧
      (∀ connection ∈ shortFile.connections, connection.Fits) ∧
      shortFile.SpelledBy shortText ∧ File.parse shortText = .ok shortFile ∧
      ∃ failure, File.parse repeatedText = .error failure ∧ failure.code = "P001" := by
  have positions : ∀ node ∈ shortFile.nodes, node.PositionReturns := by
    have returned : ∀ node ∈ shortFile.nodes,
        (Number.float node.x).ReadsBack ∧ (Number.float node.y).ReadsBack := by decide +kernel
    exact fun node listed => ⟨(returned node listed).1, (returned node listed).2⟩
  have indices : ∀ connection ∈ shortFile.connections, connection.Fits :=
    List.forall_mem_singleton.mpr ⟨by decide, by decide, by decide, by decide⟩
  have sameShort : shortText = blankText (plainObject filePairs) := by decide +kernel
  have spelled : shortFile.SpelledBy shortText :=
    ⟨_, renders_filePairs, sameShort ▸ spaced_blankText _⟩
  have sameRepeated : repeatedText =
      blankText (plainObject [("nodes", arrayTokens [plainObject repeatedPairs])]) := by
    decide +kernel
  exact ⟨positions, indices, spelled,
    (File.parse_of_spelling shortText).1 shortFile positions indices spelled,
    (File.parse_of_spelling repeatedText).2 _ repeatsField_repeatedPairs
      (sameRepeated ▸ spaced_blankText _)⟩

end MotionSteps.Project
