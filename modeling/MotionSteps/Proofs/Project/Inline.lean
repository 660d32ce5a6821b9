import MotionSteps.Proofs.Graph.Renaming
import MotionSteps.Proofs.Json.Agreement
import MotionSteps.Proofs.Json.Trimming
import MotionSteps.Proofs.Program.Linked
import MotionSteps.Proofs.Project.Contents
import MotionSteps.Proofs.Project.Spellings
import MotionSteps.Proofs.Step.Defaults

/-!
# Documents inline and as text

A document that is held inline comes to the graph as the text that is printed of it, with its keys
in order and each of them once. A document that is held as a string comes as that string. Both
are read again when the step is compiled, and they come to the same members: printing and reading
give a value back whose numbers come back.
-/

namespace MotionSteps

/-! ## Trimming -/

namespace Json

theorem trimmed_braces (inner : List Char) : Text.Trimmed ('\x7b' :: inner ++ ['\x7d']) := by
  constructor
  · rintro c ⟨⟩
    decide
  · rw [List.getLast?_concat]
    rintro c ⟨⟩
    decide

theorem trim_compact (members : Members) :
    Text.trim (Json.object members).compact = (Json.object members).compact := by
  obtain ⟨inner, printed⟩ := exists_objectChars .compact 0 members
  apply String.toList_injective
  rw [Text.toList_trim, compact, String.toList_ofList, printed, (trimmed_braces inner).trimChars_eq]

end Json

namespace Project

open Json

/-! ## The text of an object -/

/-- A text is that of an object, in whatever layout, order and spelling and with whatever keys given
more than once. It opens no more containers than may be open inside a node and is read as
`members`, whose numbers come back as they were read. -/
structure IsObjectText (text : String) (spelled : List SpelledMember) (members : Members) :
    Prop where
  nests : NestsWithin documentDepth (objectTokens spelled)
  spaced : Spaced (objectTokens spelled) text.toList
  reads : Json.parse text = .ok (.object members)
  returns : ∀ number ∈ (Json.object members).numbers, number.ReadsBack

/-- What the text of an object comes to. -/
theorem documentReading_of_parse {raw : String} {members : Members}
    (reads : Json.parse (Text.trim raw) = .ok (.object members)) :
    documentReading (some raw) = .ok members :=
  (readsAs_iff.mp (readsAs_members_iff.mpr reads)).symm

namespace IsObjectText

variable {text : String} {spelled : List SpelledMember} {members : Members}

/-- Inside a node the members are read in every layout. -/
theorem takes (object : IsObjectText text spelled members) :
    Takes (Reader.value documentDepth) (objectTokens spelled) (.object members) := by
  obtain ⟨found, rfl, takes⟩ :=
    (object.nests.carries_value maxDepth).of_parse object.spaced object.reads
  exact takes

/-- As a string the text comes to the members that it spells. -/
theorem documentReading_text (object : IsObjectText text spelled members) :
    documentReading (some text) = .ok members := by
  -- Trimming takes off separators only, so what is left is another layout of the same object.
  have carries := carries_value object.nests.isValue (Nat.le_refl maxDepth)
  have spaced : Spaced (objectTokens spelled) (Text.trim text).toList := by
    rw [Text.toList_trim]
    exact object.spaced.trimChars object.nests.isValue
  obtain ⟨found, rfl, parsed⟩ := carries.parse object.spaced spaced object.reads
  exact documentReading_of_parse parsed

/-- Inline it comes to the same members, which are printed and read again. -/
theorem documentReading_inline (object : IsObjectText text spelled members) :
    documentReading (documentText (.object members)) = .ok members := by
  have read := ((Readable.of_parse object.reads).reads object.returns).parse_compact
  rw [← trim_compact] at read
  exact documentReading_of_parse read

/-- A step of any kind gets the same parameters and issues from both. -/
theorem extractText_eq (object : IsObjectText text spelled members) (kind : StepKind) :
    kind.extractText (documentText (.object members)) = kind.extractText (some text) := by
  rw [kind.extractText_eq, kind.extractText_eq, object.documentReading_inline,
    object.documentReading_text]

end IsObjectText

/-! ## Rows that differ in documents -/

/-- One row holds a document inline, the other as a string. -/
inductive SameDocument : List Token → List Token → Prop where
  | textual {text : String} {spelled : List SpelledMember} {members : Members} {inside : List Char}
      (object : IsObjectText text spelled members) (spells : Spells inside text.toList) :
      SameDocument (objectTokens spelled) [stringToken inside]
  | inline {text : String} {spelled : List SpelledMember} {members : Members} {inside : List Char}
      (object : IsObjectText text spelled members) (spells : Spells inside text.toList) :
      SameDocument [stringToken inside] (objectTokens spelled)

/-- Two nodes are written alike but for the way in which they hold their document. -/
abbrev SameNode : List Token → List Token → Prop :=
  AgreeBut ["jsonData", "rawParams"] 4 SameDocument

/-- Two lists of nodes are written alike but for the way in which nodes hold their documents. -/
inductive SameNodes : List Token → List Token → Prop where
  | array {nodes others : List (List Token)} (each : List.Forall₂ SameNode nodes others) :
      SameNodes (arrayTokens nodes) (arrayTokens others)

/-- Two projects are written alike but for the way in which nodes hold their documents. -/
abbrev SameProject : List Token → List Token → Prop :=
  AgreeBut ["nodes"] 0 SameNodes

/-! ## What is read of them -/

/-- Two nodes are the same but for their documents, of which every step gets the same. -/
structure FileNode.ReadsAlike (node other : FileNode) : Prop where
  typeLabel_eq : other.typeLabel = node.typeLabel
  label_eq : other.label = node.label
  x_eq : other.x = node.x
  y_eq : other.y = node.y
  extractText_eq : ∀ kind : StepKind,
    kind.extractText other.document = kind.extractText node.document

/-- Two files are the same but for the documents of their nodes, of which every step gets the
same. -/
structure File.ReadsAlike (file other : File) : Prop where
  nodes : List.Forall₂ FileNode.ReadsAlike file.nodes other.nodes
  connections_eq : other.connections = file.connections

theorem FileNode.ReadsAlike.refl (node : FileNode) : node.ReadsAlike node :=
  ⟨rfl, rfl, rfl, rfl, fun _ => rfl⟩

/-- Every field of a node is read in the same way in every layout. -/
theorem FileNode.steady_fields : ∀ field ∈ FileNode.form.fields, ∀ value, IsValue value →
    field.Carries FileNode.ReadsAlike value value := by
  simp only [form, List.forall_mem_cons]
  refine ⟨fun value isValue => ?_, fun value isValue => ?_, fun value isValue => ?_,
    fun value isValue => ?_, fun value isValue => ?_, List.forall_mem_nil _⟩
  · refine Field.carries_of (Reader.steady_string value isValue) ?_
    rintro node other held _ alike rfl
    exact { alike with typeLabel_eq := rfl }
  · refine Field.carries_of (Reader.steady_string value isValue) ?_
    rintro node other held _ alike rfl
    exact { alike with label_eq := rfl }
  · refine Field.carries_of (Reader.steady_float value isValue) ?_
    rintro node other held _ alike rfl
    exact { alike with x_eq := rfl }
  · refine Field.carries_of (Reader.steady_float value isValue) ?_
    rintro node other held _ alike rfl
    exact { alike with y_eq := rfl }
  · have carries : Carries ((Reader.value documentDepth).map documentText)
        ((Reader.value documentDepth).map documentText) Eq value value :=
      (carries_value isValue (Nat.le_refl documentDepth)).map fun _ _ => congrArg documentText
    refine Field.carries_of carries ?_
    rintro node other held _ alike rfl
    exact { alike with extractText_eq := fun _ => rfl }

/-- The field of a node that holds its document. -/
def FileNode.documentField : Json.Field FileNode :=
  .of "jsonData" ["rawParams"] false ((Reader.value documentDepth).map documentText)
    fun node document => { node with document }

/-- Either way of holding a document is read, and comes to the same. -/
theorem SameDocument.carries {value other : List Token} (same : SameDocument value other) :
    IsValue value ∧ IsValue other ∧
      FileNode.documentField.Carries FileNode.ReadsAlike value other := by
  have goes : ∀ (node other : FileNode) (held found : Option String), node.ReadsAlike other →
      (∀ kind : StepKind, kind.extractText found = kind.extractText held) →
        FileNode.ReadsAlike { node with document := held } { other with document := found } :=
    fun node other held found alike same => { alike with extractText_eq := same }
  cases same with
  | textual object spells =>
      refine ⟨object.nests.isValue, .atom (.string spells.isInside), Field.carries_of ?_ goes⟩
      exact .of_takes (object.takes.map documentText)
        ((Takes.text spells documentDepth).map documentText)
        fun kind => (object.extractText_eq kind).symm
  | inline object spells =>
      refine ⟨.atom (.string spells.isInside), object.nests.isValue, Field.carries_of ?_ goes⟩
      exact .of_takes ((Takes.text spells documentDepth).map documentText)
        (object.takes.map documentText) object.extractText_eq

theorem SameNode.carries {value other : List Token} (same : SameNode value other) :
    IsValue value ∧ IsValue other ∧
      Carries FileNode.form.reader FileNode.form.reader FileNode.ReadsAlike value other :=
  RecordForm.carries_of_agreeBut (by decide) FileNode.skims_fields (.refl _) FileNode.steady_fields
    (show FileNode.form.fields[4]? = some FileNode.documentField from rfl)
    (fun _ _ => SameDocument.carries) same

theorem SameNodes.carries {value other : List Token} (same : SameNodes value other) :
    IsValue value ∧ IsValue other ∧
      Carries (.array FileNode.form.reader) (.array FileNode.form.reader)
        (List.Forall₂ FileNode.ReadsAlike) value other := by
  cases same with
  | @array nodes others each =>
      have carried : List.Forall₂ (fun tokens others => IsValue tokens ∧ IsValue others ∧
          Carries FileNode.form.reader FileNode.form.reader FileNode.ReadsAlike tokens others)
          nodes others := each.imp fun _ _ => SameNode.carries
      refine ⟨.array fun tokens listed => ?_, .array fun tokens listed => ?_,
        carries_array (RecordForm.skims_reader FileNode.skims_fields) carried⟩
      · obtain ⟨other, -, isValue, -⟩ := exists_mem_of_forall₂ carried listed
        exact isValue
      · obtain ⟨node, -, -, isValue, -⟩ := exists_mem_of_forall₂ carried.flip listed
        exact isValue

/-- Every field of a connection is read as the same in every layout. -/
theorem FileConnection.steady_fields : ∀ field ∈ FileConnection.form.fields, ∀ value,
    IsValue value → field.Carries Eq value value := by
  simp only [form, List.forall_mem_cons]
  refine ⟨fun value isValue => ?_, fun value isValue => ?_, List.forall_mem_nil _⟩
  · refine Field.carries_of (Reader.steady_integer value isValue) ?_
    rintro connection _ held _ rfl rfl
    rfl
  · refine Field.carries_of (Reader.steady_integer value isValue) ?_
    rintro connection _ held _ rfl rfl
    rfl

/-- The list of nodes in a file. -/
def File.nodesField : Json.Field File :=
  .of "nodes" [] false (.array FileNode.form.reader) fun file nodes => { file with nodes }

theorem File.steady_fields : ∀ field ∈ File.form.fields, ∀ value, IsValue value →
    field.Carries File.ReadsAlike value value := by
  have nodes := (RecordForm.steady_reader FileNode.skims_fields (.refl _)
    FileNode.steady_fields).array (RecordForm.skims_reader FileNode.skims_fields)
  have connections := (RecordForm.steady_reader FileConnection.skims_fields rfl
    FileConnection.steady_fields).array (RecordForm.skims_reader FileConnection.skims_fields)
  simp only [form, List.forall_mem_cons]
  refine ⟨fun value isValue => ?_, fun value isValue => ?_, List.forall_mem_nil _⟩
  · exact Field.carries_of (nodes value isValue) fun _ _ _ _ alike same =>
      { alike with nodes := same }
  · refine Field.carries_of (connections value isValue) fun _ _ _ _ alike same => ?_
    rw [List.forall₂_eq_eq_eq] at same
    exact { alike with connections_eq := same.symm }

/-- Of two projects that hold their documents differently the same is read, up to the texts of the
documents. -/
theorem SameProject.carries {value other : List Token} (same : SameProject value other) :
    Carries File.form.reader File.form.reader File.ReadsAlike value other := by
  have blank : File.form.blank.ReadsAlike File.form.blank := ⟨.nil, rfl⟩
  refine (RecordForm.carries_of_agreeBut (by decide) File.skims_fields blank File.steady_fields
    (show File.form.fields[0]? = some File.nodesField from rfl) (fun value other same => ?_)
    same).2.2
  obtain ⟨isValue, isOther, carries⟩ := SameNodes.carries same
  exact ⟨isValue, isOther, Field.carries_of carries fun _ _ _ _ alike same =>
    { alike with nodes := same }⟩

namespace File.ReadsAlike

variable {file other : File} (alike : file.ReadsAlike other)

include alike

theorem kinds_eq : other.nodes.map FileNode.kind = file.nodes.map FileNode.kind :=
  map_eq_map_of_forall₂ alike.nodes fun _ _ same => congrArg StepKind.ofLabel same.typeLabel_eq

theorem kind?_eq (position : Int) :
    (other.node? position).map FileNode.kind = (file.node? position).map FileNode.kind := by
  unfold File.node?
  split
  · rfl
  · rw [← List.getElem?_map, ← List.getElem?_map, alike.kinds_eq]

/-- Which connections are left out hangs on the kinds of the nodes alone. -/
theorem possibleConnections_eq : other.possibleConnections = file.possibleConnections := by
  have carries : other.carries = file.carries := by
    funext connection
    have looked : ∀ (file : File) (position : Int) (port : StepKind → Bool),
        (file.node? position).any (fun node => port node.kind) =
          ((file.node? position).map FileNode.kind).any port :=
      fun file position port => Option.any_map.symm
    simp only [File.carries, looked _ _ fun kind => kind.ports.output,
      looked _ _ fun kind => kind.ports.input, alike.kind?_eq]
  rw [File.possibleConnections_eq, File.possibleConnections_eq, carries, alike.connections_eq]

end File.ReadsAlike

end Project

/-! ## Graphs that differ in documents -/

/-- Two nodes are the same in all that a program depends on but their documents, of which every
step gets the same. -/
structure Node.ReadsAlike (node other : Node) : Prop where
  id_eq : other.id = node.id
  kind_eq : other.kind = node.kind
  extractText_eq : ∀ kind : StepKind,
    kind.extractText other.document = kind.extractText node.document

theorem Node.ReadsAlike.compiled_eq {node other : Node} (alike : node.ReadsAlike other)
    (count position : Nat) : other.compiled count position = node.compiled count position := by
  simp only [Node.compiled, alike.id_eq, alike.kind_eq, alike.extractText_eq]

namespace Graph

/-- Two graphs are the same but for documents of which every step gets the same. -/
structure ReadsAlike (graph other : Graph) : Prop where
  nodes : List.Forall₂ Node.ReadsAlike graph.nodes other.nodes
  connections_eq : other.connections = graph.connections

/-- Files that are read alike are loaded alike. -/
theorem readsAlike_load (graph : Graph) {file other : Project.File}
    (alike : file.ReadsAlike other) :
    (graph.load file).ReadsAlike (graph.load other) where
  nodes := by
    rw [(loaded_load graph file).nodes_eq, (loaded_load graph other).nodes_eq]
    exact forall₂_mapIdx alike.nodes fun _ _ _ same =>
      ⟨rfl, congrArg StepKind.ofLabel same.typeLabel_eq, same.extractText_eq⟩
  connections_eq := by
    rw [(loaded_load graph file).connections_eq, (loaded_load graph other).connections_eq,
      alike.possibleConnections_eq]

namespace ReadsAlike

variable {graph other : Graph} (alike : graph.ReadsAlike other)

include alike

/-- No handle changes, and a linearization does not look at documents. -/
theorem renames : Renames graph other fun id => id where
  nodes_eq := map_eq_map_of_forall₂ alike.nodes fun _ _ same => by rw [same.id_eq, same.kind_eq]
  leads_eq id _ := by
    rw [firstSuccessor?, firstSuccessor?, successors, successors, outgoing, outgoing,
      alike.connections_eq, Option.map_id']

variable (wellFormed : graph.WellFormed) (wellFormedOther : other.WellFormed)

include wellFormed wellFormedOther

/-- Every node is compiled to the same step, with the same issues. -/
theorem compiledSteps_eq :
    other.compiledSteps other.linearize = graph.compiledSteps graph.linearize := by
  have order := alike.renames.order_eq wellFormed wellFormedOther
  rw [List.map_id'] at order
  rw [compiledSteps, compiledSteps, order]
  -- The orders are the same, so it is enough to look up one handle in both graphs.
  refine List.filterMap_congr fun entry listed => ?_
  obtain ⟨id, position⟩ := entry
  have inOrder : id ∈ graph.linearize.order :=
    List.mem_of_getElem? (List.mem_zipIdx_iff_getElem?.mp listed)
  obtain ⟨node, held⟩ := wellFormed.live_of_mem_order id inOrder
  obtain rfl := wellFormed.id_of_node? held
  obtain ⟨changed, member, same⟩ :=
    exists_mem_of_forall₂ alike.nodes (wellFormed.mem_nodes_iff.mpr held)
  have heldOther := wellFormedOther.mem_nodes_iff.mp member
  rw [same.id_eq] at heldOther
  dsimp only
  rw [held, heldOther, Option.map_some, Option.map_some, same.compiled_eq]

theorem compile_eq (settings : Settings) : other.compile settings = graph.compile settings := by
  have steps := alike.compiledSteps_eq wellFormed wellFormedOther
  have filled : other.isEmpty = graph.isEmpty := by
    simpa only [isEmpty, nodeIds, List.map_id', List.isEmpty_map] using
      congrArg List.isEmpty alike.renames.nodeIds_eq
  rw [compile, compile, steps, filled]

end ReadsAlike

end Graph

namespace Project

open Json

/-- Two texts describe one project but for the way in which nodes hold their documents. -/
def SameButDocuments (first second : String) : Prop :=
  ∃ row other, SameProject row other ∧ Spaced row first.toList ∧ Spaced other second.toList

/-- What one text restores, the other restores with the same steps, the same issues and the same
program. -/
def RestoresLike (first second : String) : Prop :=
  ∀ graph, Graph.restore first = .ok graph → ∃ other, Graph.restore second = .ok other ∧
    other.compiledSteps other.linearize = graph.compiledSteps graph.linearize ∧
      ∀ settings, other.compile settings = graph.compile settings

theorem SameDocument.symm {value other : List Token} (same : SameDocument value other) :
    SameDocument other value := by
  cases same with
  | textual object spells => exact .inline object spells
  | inline object spells => exact .textual object spells

theorem SameNodes.symm {value other : List Token} (same : SameNodes value other) :
    SameNodes other value := by
  cases same with
  | array each => exact .array (each.flip.imp fun _ _ => AgreeBut.symm fun _ _ => SameDocument.symm)

theorem SameButDocuments.symm {first second : String} (same : SameButDocuments first second) :
    SameButDocuments second first := by
  obtain ⟨row, other, agree, spaced, spacedOther⟩ := same
  exact ⟨other, row, agree.symm fun _ _ => SameNodes.symm, spacedOther, spaced⟩

theorem SameButDocuments.restoresLike {first second : String}
    (same : SameButDocuments first second) : RestoresLike first second := by
  obtain ⟨row, other, agree, spaced, spacedOther⟩ := same
  intro graph restored
  cases parsed : File.form.reader.parse first with
  | error error =>
      simp only [Graph.restore, File.parse, parsed] at restored
      cases restored
  | ok file =>
      have equation : Graph.restore first = .ok (Graph.empty.load file) := by
        rw [Graph.restore, File.parse, parsed]
        rfl
      obtain rfl := Except.ok.inj (restored.symm.trans equation)
      obtain ⟨found, alike, parsedOther⟩ :=
        (SameProject.carries agree).parse spaced spacedOther parsed
      have loaded := Graph.readsAlike_load Graph.empty alike
      have wellFormed := Graph.load_wellFormed Graph.empty file
      have wellFormedOther := Graph.load_wellFormed Graph.empty found
      refine ⟨Graph.empty.load found, ?_, loaded.compiledSteps_eq wellFormed wellFormedOther,
        loaded.compile_eq wellFormed wellFormedOther⟩
      rw [Graph.restore, File.parse, parsedOther]
      rfl

/-- The text of an object and the object inline are the same document. A step of any kind gets the
same parameters and the same issues from both, and so does the node that holds the one or the
other. Two projects that differ in nothing else have the same steps, issues and program, or
neither is restored. -/
theorem inline_of_text :
    (∀ text spelled members, IsObjectText text spelled members → ∀ kind : StepKind,
        kind.extractText (documentText (.object members)) = kind.extractText (some text)) ∧
      (∀ row other first second, SameNode row other → Spaced row first.toList →
        Spaced other second.toList → ∀ node, FileNode.form.reader.parse first = .ok node →
          ∃ changed, node.ReadsAlike changed ∧ FileNode.form.reader.parse second = .ok changed) ∧
      ∀ first second, SameButDocuments first second →
        RestoresLike first second ∧ RestoresLike second first := by
  refine ⟨fun text spelled members object => object.extractText_eq, ?_, ?_⟩
  · intro row other first second same spaced spacedOther node parsed
    exact (SameNode.carries same).2.2.parse spaced spacedOther parsed
  · intro first second same
    exact ⟨same.restoresLike, same.symm.restoresLike⟩

/-- The members of a document in which a key is given twice. -/
def waitPairs : List (String × List Token) :=
  [("delay", plainString "soon"), ("note", arrayTokens [[['n', 'u', 'l', 'l']]]),
    ("delay", [['2', '.', '5', 'e', '1']])]

/-- The text of this document. -/
def waitText : String :=
  blankText (plainObject waitPairs)

/-- A node that holds a document. -/
def waitNode (document : List Token) : List Token :=
  plainObject [("type", plainString "wait"), ("rawParams", document)]

/-- A project with this node. -/
def waitProject (document : List Token) : List Token :=
  plainObject [("nodes", arrayTokens [waitNode document])]

theorem exists_isObjectText_waitText :
    ∃ members, IsObjectText waitText (waitPairs.map fun pair => .plain pair.1 pair.2) members := by
  have plain : ∀ pair ∈ waitPairs, ArePlain pair.1.toList := by decide
  have soon : NestsWithin 123 (plainString "soon") :=
    .atom (.string (spells_of_arePlain (by decide)).isInside)
  have note : NestsWithin 123 (arrayTokens [[['n', 'u', 'l', 'l']]]) :=
    .array (List.forall_mem_singleton.mpr (.atom .null))
  have digit : ∀ {c : Char}, c.isDigit = true → AreDigits [c] := fun numeric =>
    ⟨List.cons_ne_nil _ _, List.forall_mem_singleton.mpr numeric⟩
  have numeral : IsNumeral ([] ++ (['2'] ++ (['.', '5'] ++ 'e' :: ([] ++ ['1'])))) :=
    .parts (by decide) ⟨digit rfl, by decide⟩ (.some (digit rfl))
      (.some (.inl rfl) (by decide) (digit rfl))
  have nests : NestsWithin documentDepth (plainObject waitPairs) := by
    refine .object (List.forall_mem_map.mpr fun pair listed => ?_) (List.forall_mem_map.mpr ?_)
    · exact (spells_of_arePlain (plain pair listed)).isInside
    · simpa [waitPairs, SpelledMember.plain] using ⟨soon, note, .atom (.numeral numeral)⟩
  have returned : (((Json.parse waitText).toOption.bind Json.members?).any fun members =>
      ∀ number ∈ (Json.object members).numbers, number.ReadsBack) = true := by
    decide +kernel
  obtain ⟨members, found, numbers⟩ := (Option.any_eq_true _ _).mp returned
  exact ⟨members, nests, spaced_blankText _, parse_of_members? found, of_decide_eq_true numbers⟩

theorem sameNode_waitNode :
    SameNode (waitNode (plainObject waitPairs)) (waitNode [stringChars waitText]) := by
  obtain ⟨members, object⟩ := exists_isObjectText_waitText
  obtain ⟨inside, printed, spells⟩ := exists_spells_stringChars waitText
  have wait : IsValue (plainString "wait") :=
    .atom (.string (spells_of_arePlain (by decide)).isInside)
  have before : AreMembers [SpelledMember.plain "type" (plainString "wait")] :=
    ⟨List.forall_mem_singleton.mpr (spells_of_arePlain (by decide)).isInside,
      List.forall_mem_singleton.mpr wait⟩
  rw [printed]
  exact .member before ⟨nofun, nofun⟩ ⟨"rawParams", by decide, spells_of_arePlain (by decide)⟩
    (.textual object spells)

theorem sameButDocuments_waitProject :
    SameButDocuments (blankText (waitProject (plainObject waitPairs)))
      (blankText (waitProject [stringChars waitText])) := by
  have nodes : SameNodes (arrayTokens [waitNode (plainObject waitPairs)])
      (arrayTokens [waitNode [stringChars waitText]]) := .array (.cons sameNode_waitNode .nil)
  have none : AreMembers [] := ⟨nofun, nofun⟩
  have named : SpelledMember.IsNamed
      (.plain "nodes" (arrayTokens [waitNode (plainObject waitPairs)])) ["nodes"] :=
    ⟨"nodes", by decide, spells_of_arePlain (by decide)⟩
  exact ⟨_, _, .member none none named nodes, spaced_blankText _, spaced_blankText _⟩

/-- The document, the node and the project, each read in both ways. -/
theorem inline_of_waitText :
    (∃ members, documentReading (some waitText) = .ok members ∧
      StepKind.wait.extractText (documentText (.object members)) =
        StepKind.wait.extractText (some waitText)) ∧
      (∃ node changed,
        FileNode.form.reader.parse (blankText (waitNode (plainObject waitPairs))) = .ok node ∧
          FileNode.form.reader.parse (blankText (waitNode [stringChars waitText])) = .ok changed ∧
            node.ReadsAlike changed) ∧
      ∃ graph other,
        Graph.restore (blankText (waitProject (plainObject waitPairs))) = .ok graph ∧
          Graph.restore (blankText (waitProject [stringChars waitText])) = .ok other ∧
            graph.nodes.length = 1 ∧ other.compile {} = graph.compile {} := by
  obtain ⟨extracted, nodes, projects⟩ := inline_of_text
  refine ⟨?_, ?_, ?_⟩
  · obtain ⟨members, object⟩ := exists_isObjectText_waitText
    exact ⟨members, object.documentReading_text, extracted _ _ members object .wait⟩
  · have read : (FileNode.form.reader.parse
        (blankText (waitNode (plainObject waitPairs)))).toOption.isSome = true := by decide +kernel
    cases parsed : FileNode.form.reader.parse (blankText (waitNode (plainObject waitPairs))) with
    | error error => rw [parsed] at read; cases read
    | ok node =>
        obtain ⟨changed, alike, parsedOther⟩ := nodes _ _ _ _ sameNode_waitNode
          (spaced_blankText _) (spaced_blankText _) node parsed
        exact ⟨node, changed, rfl, parsedOther, alike⟩
  · have read : (Graph.restore (blankText (waitProject (plainObject waitPairs)))).toOption.map
        (fun graph => graph.nodes.length) = some 1 := by decide +kernel
    cases restored : Graph.restore (blankText (waitProject (plainObject waitPairs))) with
    | error failure => rw [restored] at read; cases read
    | ok graph =>
        obtain ⟨other, restoredOther, -, compiled⟩ :=
          (projects _ _ sameButDocuments_waitProject).1 graph restored
        rw [restored] at read
        exact ⟨graph, other, rfl, restoredOther, Option.some.inj read, compiled {}⟩

end Project

end MotionSteps
