import MotionSteps.Proofs.Project.Loading

/-!
# Graphs whose ports follow from their labels

Unless an edit gives a node ports of its own, the ports of a node follow from its type
label, in one of two ways: a node that is added has the ports of its label, a node that is
loaded those of its kind. `portsImplied` carries this through every history of such edits. The
two ways differ at the half nodes of a jump, which lack a port that their kind has. So no node
has a port that its kind lacks (`portsFit`), and `Node.PortsImplied.input_iff` and `output_iff`
say where a node lacks one that its kind has.
-/

namespace MotionSteps

namespace Text

/-- A character whose capital is an ASCII character is one itself. -/
theorem ascii_of_toUpper_ascii {c : Char} (ascii : c.toUpper.toNat < 0x80) : c.toNat < 0x80 := by
  by_cases lower : c.val ≥ 'a'.val ∧ c.val ≤ 'z'.val
  · have : c.toNat ≤ 'z'.toNat := lower.2
    exact Nat.lt_of_le_of_lt this (by decide)
  · have kept : c.toUpper = c := dif_neg lower
    rwa [kept] at ascii

/-- A text whose ASCII capitals are ASCII throughout has no other capitals. -/
theorem uppercase_of_uppercaseAscii {text name : String} (ascii : ∀ c ∈ name.toList, c.toNat < 0x80)
    (folded : uppercaseAscii text = name) : uppercase text = name := by
  have letters : text.toList.map Char.toUpper = name.toList := by
    rw [← folded, uppercaseAscii, String.toList_ofList]
  have images : ∀ c ∈ text.toList, Uppercase.chars c = [c.toUpper] := by
    intro c member
    refine Uppercase.chars_of_ascii (ascii_of_toUpper_ascii (ascii _ ?_))
    rw [← letters]
    exact List.mem_map_of_mem member
  have capitals : uppercaseChars text.toList = name.toList := by
    rw [← letters, uppercaseChars, List.flatMap_congr images, ← List.map_eq_flatMap]
  rw [uppercase, capitals, String.ofList_toList]

end Text

/-- Whether ports are among those that others offer. -/
structure Ports.Within (ports others : Ports) : Prop where
  input : ports.input = true → others.input = true
  output : ports.output = true → others.output = true

theorem Ports.Within.refl (ports : Ports) : ports.Within ports :=
  ⟨id, id⟩

/-- A half node of a jump is of the kind of a jump, in whatever letters its label is written. -/
theorem StepKind.ofLabel_of_half {label name : String}
    (half : name = "JUMP IMPORT" ∨ name = "JUMP EXPORT")
    (folded : Text.uppercaseAscii (Text.trim label) = name) : StepKind.ofLabel label = .goto := by
  have capitals : StepKind.foldLabel label = name := by
    refine Text.uppercase_of_uppercaseAscii ?_ folded
    rcases half with rfl | rfl <;> simp
  rw [StepKind.ofLabel, capitals]
  rcases half with rfl | rfl <;> decide

/-- The ports that a label implies are ports of its kind. -/
theorem Ports.ofLabel_within (label : String) :
    (Ports.ofLabel label).Within (StepKind.ofLabel label).ports := by
  unfold Ports.ofLabel
  simp only [beq_iff_eq]
  split
  · next import_ =>
      rw [StepKind.ofLabel_of_half (.inl rfl) import_]
      exact ⟨fun _ => rfl, Bool.noConfusion⟩
  · split
    · next export_ =>
        rw [StepKind.ofLabel_of_half (.inr rfl) export_]
        exact ⟨Bool.noConfusion, fun _ => rfl⟩
    · exact .refl _

/-- A node has no port that its kind lacks. -/
def Node.PortsFit (node : Node) : Prop :=
  node.ports.Within node.kind.ports

/-- A node has the ports of its label or those of its kind. -/
def Node.PortsImplied (node : Node) : Prop :=
  node.ports = .ofLabel node.typeLabel ∨ node.ports = node.kind.ports

/-- The half node of a jump that has no output of its own. -/
def Node.IsImport (node : Node) : Prop :=
  Text.uppercaseAscii (Text.trim node.typeLabel) = "JUMP IMPORT"

/-- The half node of a jump that has no input of its own. -/
def Node.IsExport (node : Node) : Prop :=
  Text.uppercaseAscii (Text.trim node.typeLabel) = "JUMP EXPORT"

namespace Node

variable {node : Node}

/-- The kind of a half node has both ports. -/
theorem IsImport.ports_kind (half : node.IsImport) : node.kind.ports = ⟨true, true⟩ := by
  rw [kind, StepKind.ofLabel_of_half (.inl rfl) half]
  rfl

theorem IsExport.ports_kind (half : node.IsExport) : node.kind.ports = ⟨true, true⟩ := by
  rw [kind, StepKind.ofLabel_of_half (.inr rfl) half]
  rfl

theorem IsImport.ofLabel (half : node.IsImport) : Ports.ofLabel node.typeLabel = ⟨true, false⟩ := by
  simp only [Ports.ofLabel, beq_iff_eq]
  exact if_pos half

theorem IsExport.ofLabel (half : node.IsExport) : Ports.ofLabel node.typeLabel = ⟨false, true⟩ := by
  have other : ¬ node.IsImport := by
    intro import_
    have same := half.symm.trans import_
    simp at same
  simp only [Ports.ofLabel, beq_iff_eq]
  exact (if_neg other).trans (if_pos half)

/-- Every other node has the ports of its kind. -/
theorem ofLabel_of_whole (noImport : ¬ node.IsImport) (noExport : ¬ node.IsExport) :
    Ports.ofLabel node.typeLabel = node.kind.ports := by
  simp only [Ports.ofLabel, beq_iff_eq]
  exact (if_neg noImport).trans (if_neg noExport)

namespace PortsImplied

theorem portsFit (implied : node.PortsImplied) : node.PortsFit := by
  rcases implied with ports | ports
  · rw [PortsFit, ports]
    exact Ports.ofLabel_within node.typeLabel
  · rw [PortsFit, ports]
    exact .refl _

/-- A node that is no half node has the ports of its kind. -/
theorem ports_eq (implied : node.PortsImplied) (noImport : ¬ node.IsImport)
    (noExport : ¬ node.IsExport) : node.ports = node.kind.ports := by
  rcases implied with ports | ports
  · rw [ports, ofLabel_of_whole noImport noExport]
  · exact ports

/-- The kind of a node has an input exactly when the node has one or is a half node without. -/
theorem input_iff (implied : node.PortsImplied) :
    node.kind.ports.input = true ↔ node.ports.input = true ∨ node.IsExport := by
  by_cases export_ : node.IsExport
  · simp [export_, export_.ports_kind]
  by_cases import_ : node.IsImport
  · rcases implied with ports | ports
    · simp [ports, import_.ofLabel, import_.ports_kind]
    · simp [ports, import_.ports_kind]
  · simp [implied.ports_eq import_ export_, export_]

/-- The kind of a node has an output exactly when the node has one or is a half node without. -/
theorem output_iff (implied : node.PortsImplied) :
    node.kind.ports.output = true ↔ node.ports.output = true ∨ node.IsImport := by
  by_cases import_ : node.IsImport
  · simp [import_, import_.ports_kind]
  by_cases export_ : node.IsExport
  · rcases implied with ports | ports
    · simp [ports, export_.ofLabel, export_.ports_kind]
    · simp [ports, export_.ports_kind]
  · simp [implied.ports_eq import_ export_, import_]

end PortsImplied

end Node

/-- An edit that leaves the ports of a new node to its label. -/
def Edit.ImpliesPorts : Edit → Prop
  | .addNode draft => draft.ports = none
  | _ => True

namespace Graph

/-- A graph that some sequence of edits makes of the empty graph, none of which gives a
node ports of its own. -/
def ReachableByImpliedPorts (graph : Graph) : Prop :=
  ∃ edits, (∀ edit ∈ edits, edit.ImpliesPorts) ∧ empty.run edits = graph

/-- No node of a graph has a port that its kind lacks. -/
def PortsFit (graph : Graph) : Prop :=
  ∀ node ∈ graph.nodes, node.PortsFit

/-- Every node of a graph has the ports of its label or those of its kind. -/
def PortsImplied (graph : Graph) : Prop :=
  ∀ node ∈ graph.nodes, node.PortsImplied

variable {graph : Graph}

theorem ReachableByImpliedPorts.reachable (reachable : graph.ReachableByImpliedPorts) :
    graph.Reachable := by
  obtain ⟨edits, -, made⟩ := reachable
  exact ⟨edits, made⟩

namespace PortsImplied

/-- What is left after a removal has the ports that it had. -/
theorem removeNode (implied : graph.PortsImplied) (id : NodeId) :
    (graph.removeNode id).2.PortsImplied := by
  unfold Graph.removeNode
  split
  · exact implied
  · intro node member
    obtain ⟨index, held⟩ := Arena.mem_toList_iff.mp member
    rw [Arena.get?_erase] at held
    split at held
    · cases held
    · exact implied node (Arena.mem_toList_iff.mpr ⟨index, held⟩)

/-- A new document changes neither the type label of a node nor its ports. -/
theorem setDocument (implied : graph.PortsImplied) (id : NodeId) (document : Option String) :
    (graph.apply (.setDocument id document)).PortsImplied := by
  simp only [apply, Graph.setDocument]
  cases graph.require id with
  | error refusal => exact implied
  | ok required =>
      intro node member
      obtain ⟨index, held⟩ := Arena.mem_toList_iff.mp member
      simp only [bind, Except.bind, pure, Except.pure, Arena.get?_modify] at held
      split at held
      · obtain ⟨old, heldBefore, rfl⟩ := Option.map_eq_some_iff.mp held
        exact implied old (Arena.mem_toList_iff.mpr ⟨index, heldBefore⟩)
      · exact implied node (Arena.mem_toList_iff.mpr ⟨index, held⟩)

/-- A node without ports of its own gets those of its label. -/
theorem addNode (implied : graph.PortsImplied) {draft : NodeDraft} (none : draft.ports = none) :
    (graph.addNode draft).2.PortsImplied := by
  intro node member
  rw [addNode_eq, nodes, Arena.toList_insert, List.mem_append, List.mem_singleton] at member
  rcases member with old | rfl
  · exact implied node old
  · left
    simp only [NodeDraft.node, none, Option.getD_none]

theorem of_nodeArena_eq {other : Graph} (implied : graph.PortsImplied)
    (same : other.nodeArena = graph.nodeArena) : other.PortsImplied := by
  intro node member
  rw [nodes, same] at member
  exact implied node member

end PortsImplied

/-- Loaded nodes have the ports of their kinds. -/
theorem portsImplied_load (graph : Graph) (file : Project.File) :
    (graph.load file).PortsImplied := by
  intro node member
  rw [nodes_load, List.mem_iff_getElem] at member
  obtain ⟨position, inside, rfl⟩ := member
  right
  simp only [List.getElem_zipWith, Node.kind, NodeDraft.node, Project.FileNode.draft,
    Option.getD_some]

/-- An edit that gives no node ports of its own leaves them implied. -/
theorem PortsImplied.apply (implied : graph.PortsImplied) {edit : Edit}
    (none : edit.ImpliesPorts) : (graph.apply edit).PortsImplied := by
  cases edit with
  | addNode draft => exact implied.addNode none
  | removeNode id => exact implied.removeNode id
  | addConnection source target =>
      exact implied.of_nodeArena_eq (nodeArena_afterAttempt_addConnection graph source target)
  | connect source target =>
      exact implied.of_nodeArena_eq (nodeArena_afterAttempt_connect graph source target)
  | removeConnection id =>
      refine implied.of_nodeArena_eq ?_
      simp only [Graph.apply, Graph.removeConnection]
      split <;> rfl
  | setDocument id document => exact implied.setDocument id document
  | clear =>
      intro node member
      simp [Graph.apply, Graph.clear, nodes] at member
  | load file => exact portsImplied_load graph file

/-- In a graph whose history gives no node ports of its own, every node has the ports of its
label or those of its kind. -/
theorem ReachableByImpliedPorts.portsImplied (reachable : graph.ReachableByImpliedPorts) :
    graph.PortsImplied := by
  obtain ⟨edits, none, rfl⟩ := reachable
  have initial : empty.PortsImplied := by
    intro node member
    simp [empty, nodes] at member
  -- The induction is on the edits, from any graph whose ports are implied.
  generalize empty = start at initial
  induction edits generalizing start with
  | nil => exact initial
  | cons edit edits inductionHypothesis =>
      obtain ⟨first, later⟩ := List.forall_mem_cons.mp none
      exact inductionHypothesis later (start.apply edit) (initial.apply first)

/-- No node of such a graph has a port that its kind lacks. -/
theorem ReachableByImpliedPorts.portsFit (reachable : graph.ReachableByImpliedPorts) :
    graph.PortsFit :=
  fun node member => (reachable.portsImplied node member).portsFit

end Graph

end MotionSteps
