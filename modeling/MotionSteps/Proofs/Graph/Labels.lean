import MotionSteps.Proofs.Graph.History
import MotionSteps.Proofs.Json.Trimming
import MotionSteps.Proofs.Step.Defaults

/-!
# Labels out of documents

A document is read twice: for the parameters of its step it is trimmed first, for the label of its
node it is read as it is. Both look for the same object, and both find it if the blanks at the ends
of the text are separators. With any other blank there the step gets its parameters without an
issue, and the node keeps its old label. `label_of_setDocument` states this of every text.
-/

namespace MotionSteps

/-- A document comes to an object whose member `label` is a string that is not empty. -/
def GivesLabel (document : Option String) (label : String) : Prop :=
  ∃ members : Json.Members, ReadsAs document (.ok members) ∧
    members.get? "label" = some (.string label) ∧ label ≠ ""

/-- A document is accepted as an object when it comes to members: whatever the kind of the step,
there are issues about single fields only. -/
theorem StepKind.fieldsOnly_extractText_iff (kind : StepKind) (document : Option String) :
    (kind.extractText document).FieldsOnly ↔ ∃ members, ReadsAs document (.ok members) := by
  cases reading : documentReading document with
  | error issue =>
      have reads : ReadsAs document (.error issue) := readsAs_iff.mpr reading.symm
      have defaults : kind.extractText document = kind.defaultParams issue := by
        rw [kind.extractText_eq, reading]
      constructor
      · intro fieldsOnly
        rw [defaults, kind.defaultParams_eq] at fieldsOnly
        obtain ⟨field, found, rfl⟩ := fieldsOnly issue (List.mem_singleton_self issue)
        exact absurd reads ReadsAs.not_invalidField
      · rintro ⟨members, comes⟩
        cases (readsAs_iff.mp comes).trans reading
  | ok members =>
      have resolved : kind.extractText document = members.params kind := by
        rw [kind.extractText_eq, reading]
      constructor
      · intro _
        exact ⟨members, readsAs_iff.mpr reading.symm⟩
      · intro _
        rw [resolved]
        exact members.fieldsOnly_params kind

namespace Graph

theorem labelIn?_eq_some_iff {document label : String} :
    labelIn? document = some label ↔ ∃ members : Json.Members,
      Json.parse document = .ok (.object members) ∧
        members.get? "label" = some (.string label) ∧ label ≠ "" := by
  constructor
  · intro found
    unfold labelIn? at found
    split at found
    · next members parsed =>
        split at found
        · next given held =>
            split at found
            · cases found
            · next filled =>
                cases found
                exact ⟨members, parsed, held, by simpa using filled⟩
        · cases found
    · cases found
  · rintro ⟨members, parsed, held, filled⟩
    simp only [labelIn?, parsed, held]
    rw [if_neg (by simpa using filled)]

/-- A document gives the label that is looked for in its trimmed text. -/
theorem givesLabel_iff {raw label : String} :
    GivesLabel (some raw) label ↔ labelIn? (Text.trim raw) = some label := by
  simp only [GivesLabel, readsAs_members_iff, labelIn?_eq_some_iff]

/-- The label that is looked for in a text is the one that the document gives, if the blanks at the
ends of the text are separators. Otherwise none is found. -/
theorem labelIn?_eq_some_iff_givesLabel {raw label : String} :
    labelIn? raw = some label ↔ Json.PlainlyPadded raw ∧ GivesLabel (some raw) label := by
  rw [givesLabel_iff, labelIn?_eq_some_iff, labelIn?_eq_some_iff]
  constructor
  · rintro ⟨members, parsed, held⟩
    obtain ⟨padded, parsedTrimmed⟩ := Json.parse_eq_ok_iff_trim.mp parsed
    exact ⟨padded, members, parsedTrimmed, held⟩
  · rintro ⟨padded, members, parsedTrimmed, held⟩
    exact ⟨members, Json.parse_eq_ok_iff_trim.mpr ⟨padded, parsedTrimmed⟩, held⟩

/-- A node of the graph takes a document as it is, and the label that is looked for in it. -/
theorem exists_setDocument {graph : Graph} {id : NodeId} {node : Node}
    (held : graph.node? id = some node) (document : Option String) :
    ∃ changed, graph.setDocument id document = .ok changed ∧
      changed.node? id =
        some { node with document, label := (document.bind labelIn?).getD node.label } := by
  refine ⟨_, by rw [setDocument, require_eq_ok_iff.mpr held]; rfl, ?_⟩
  rw [node?] at held ⊢
  rw [Arena.get?_modify, if_pos rfl, held, Option.map_some]

/-- What becomes of a node that gets a document, whatever its text. The text is kept as it is. If
the document comes to an object that gives a label, and the blanks at the ends of the text are
separators, the node has that label; in every other case it keeps its own. The document comes to
an object exactly when a step of some kind, or of any, gets its parameters without an issue about
the whole document. -/
theorem label_of_setDocument {graph : Graph} {id : NodeId} {node : Node}
    (held : graph.node? id = some node) (document : Option String) :
    ∃ changed label, graph.setDocument id document = .ok changed ∧
      changed.node? id = some { node with document, label } ∧
      (∀ kind : StepKind, (kind.extractText document).FieldsOnly ↔
        ∃ members, ReadsAs document (.ok members)) ∧
      (∀ raw given, document = some raw → Json.PlainlyPadded raw →
        GivesLabel document given → label = given) ∧
      ((∀ raw given, document = some raw → Json.PlainlyPadded raw →
        ¬ GivesLabel document given) → label = node.label) := by
  obtain ⟨changed, done, stored⟩ := exists_setDocument held document
  refine ⟨changed, _, done, stored, fun kind => kind.fieldsOnly_extractText_iff document, ?_, ?_⟩
  · rintro raw given rfl padded gives
    rw [Option.bind_some, labelIn?_eq_some_iff_givesLabel.mpr ⟨padded, gives⟩, Option.getD_some]
  · intro nothing
    cases found : document.bind labelIn? with
    | none => rw [Option.getD_none]
    | some given =>
        obtain ⟨raw, rfl, found⟩ := Option.bind_eq_some_iff.mp found
        obtain ⟨padded, gives⟩ := labelIn?_eq_some_iff_givesLabel.mp found
        exact absurd gives (nothing raw given rfl padded)

/-- A graph of one node, whose label is not that of its type. -/
def pausingHistory : List Edit := [.addNode { typeLabel := "WAIT", label := some "Pause" }]

/-- The node of that graph. -/
def pausingNode : Node :=
  ⟨⟨0⟩, "Pause", "WAIT", none, ⟨0, 0⟩, StepKind.wait.ports⟩

/-- A document with a label, in the one or other padding. -/
def settlingText (padding : String) : String :=
  padding ++ "\x7b\"delay_ms\":5,\"label\":\"Settle\"\x7d" ++ padding

theorem label_after_separators :
    (empty.run pausingHistory).node? ⟨0⟩ = some pausingNode ∧
      Json.PlainlyPadded (settlingText " \n") ∧
      GivesLabel (some (settlingText " \n")) "Settle" ∧
      ∃ changed, (empty.run pausingHistory).setDocument ⟨0⟩ (settlingText " \n") = .ok changed ∧
        changed.node? ⟨0⟩ =
          some { pausingNode with document := settlingText " \n", label := "Settle" } := by
  have held : (empty.run pausingHistory).node? ⟨0⟩ = some pausingNode := rfl
  have padded : Json.PlainlyPadded (settlingText " \n") := by decide +kernel
  have gives : GivesLabel (some (settlingText " \n")) "Settle" :=
    givesLabel_iff.mpr (by decide +kernel)
  obtain ⟨changed, label, done, stored, -, adopts, -⟩ :=
    label_of_setDocument held (settlingText " \n")
  obtain rfl := adopts _ "Settle" rfl padded gives
  exact ⟨held, padded, gives, changed, done, stored⟩

/-- Behind a no-break space a label is overlooked, although the step gets its parameters. -/
theorem label_overlooked_behind_noBreakSpace :
    (empty.run pausingHistory).node? ⟨0⟩ = some pausingNode ∧
      (∀ kind : StepKind, (kind.extractText (settlingText "\u00a0")).FieldsOnly) ∧
      GivesLabel (some (settlingText "\u00a0")) "Settle" ∧
      ∃ changed, (empty.run pausingHistory).setDocument ⟨0⟩ (settlingText "\u00a0") = .ok changed ∧
        changed.node? ⟨0⟩ =
          some { pausingNode with document := settlingText "\u00a0", label := "Pause" } := by
  have held : (empty.run pausingHistory).node? ⟨0⟩ = some pausingNode := rfl
  have gives : GivesLabel (some (settlingText "\u00a0")) "Settle" :=
    givesLabel_iff.mpr (by decide +kernel)
  obtain ⟨members, reads, -⟩ := id gives
  have overlooked : labelIn? (settlingText "\u00a0") = none := by decide +kernel
  obtain ⟨changed, done, stored⟩ := exists_setDocument held (some (settlingText "\u00a0"))
  rw [Option.bind_some, overlooked] at stored
  exact ⟨held, fun kind => (kind.fieldsOnly_extractText_iff _).mpr ⟨members, reads⟩, gives,
    changed, done, stored⟩

end Graph

end MotionSteps
