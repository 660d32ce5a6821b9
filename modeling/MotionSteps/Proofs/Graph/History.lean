import Mathlib.Logic.Relation
import MotionSteps.Project.Snapshot

/-!
# Edit histories

A graph under edit is what a sequence of edits makes of the empty graph, where an edit
that is refused changes nothing. Every edit, a load included, is a sequence of six
elementary changes. `Reachable.induction` derives from that what holds of every graph
with a history: it is enough to look at one elementary change.
-/

namespace MotionSteps

/-- An edit, as the caller asks for it. Handles may name anything or nothing. -/
inductive Edit where
  | addNode (draft : NodeDraft)
  | removeNode (id : NodeId)
  | addConnection (source target : Port)
  | connect (source target : NodeId)
  | removeConnection (id : ConnectionId)
  | setDocument (id : NodeId) (document : Option String)
  | clear
  | load (file : Project.File)
  deriving Repr

namespace Graph

/-- The graph after an attempt to add a connection: a refusal changes nothing. -/
def afterAttempt (graph : Graph) : Except GraphError (ConnectionId × Graph) → Graph
  | .ok (_, extended) => extended
  | .error _ => graph

/-- The graph after an edit. -/
def apply (graph : Graph) : Edit → Graph
  | .addNode draft => (graph.addNode draft).2
  | .removeNode id => (graph.removeNode id).2
  | .addConnection source target => graph.afterAttempt (graph.addConnection source target)
  | .connect source target => graph.afterAttempt (graph.connect source target)
  | .removeConnection id => (graph.removeConnection id).2
  | .setDocument id document =>
      match graph.setDocument id document with
      | .ok changed => changed
      | .error _ => graph
  | .clear => graph.clear
  | .load file => graph.load file

/-- The graph after one edit after another. -/
def run (graph : Graph) (edits : List Edit) : Graph :=
  edits.foldl apply graph

/-- A graph that some sequence of edits makes of the empty graph. -/
def Reachable (graph : Graph) : Prop :=
  ∃ edits, empty.run edits = graph

/-- A node with an output port has the handle. -/
def HasOutput (graph : Graph) (id : NodeId) : Prop :=
  ∃ node, graph.node? id = some node ∧ node.ports.output = true

/-- A node with an input port has the handle. -/
def HasInput (graph : Graph) (id : NodeId) : Prop :=
  ∃ node, graph.node? id = some node ∧ node.ports.input = true

/-- The elementary changes of a graph. -/
inductive Change (graph : Graph) : Graph → Prop where
  | insertNode (draft : NodeDraft) : Change graph (graph.addNode draft).2
  | eraseNode {id : NodeId} {node : Node} (held : graph.node? id = some node) :
      Change graph
        { nodeArena := graph.nodeArena.erase id.index
          connectionArena :=
            graph.connectionArena.filter fun connection => !connection.touches id }
  | insertConnection {source target : NodeId} (leaves : graph.HasOutput source)
      (enters : graph.HasInput target) :
      Change graph
        { graph with
          connectionArena :=
            graph.connectionArena.insert ⟨⟨graph.connectionArena.nextIndex⟩, source, target⟩ }
  | eraseConnection (id : ConnectionId) :
      Change graph { graph with connectionArena := graph.connectionArena.erase id.index }
  | setDocument (id : NodeId) (document : Option String) :
      Change graph
        { graph with
          nodeArena := graph.nodeArena.modify id.index fun node =>
            { node with document, label := (document.bind labelIn?).getD node.label } }
  | clear : Change graph graph.clear

/-- Any number of elementary changes, one after another. -/
abbrev Changes : Graph → Graph → Prop :=
  Relation.ReflTransGen Change

/-! ## When an edit is carried out -/

/-- A computation that goes on from the result of another succeeds when both do. -/
theorem bind_eq_ok_iff {error α β : Type} {first : Except error α} {next : α → Except error β}
    {result : β} :
    (first >>= next) = .ok result ↔ ∃ value, first = .ok value ∧ next value = .ok result := by
  cases first with
  | error refusal => simp [bind, Except.bind]
  | ok value => simp [bind, Except.bind]

theorem require_eq_ok_iff {graph : Graph} {id : NodeId} {node : Node} :
    graph.require id = .ok node ↔ graph.node? id = some node := by
  unfold require
  split <;> simp_all

/-- An output port is handed out for a node that has one. -/
theorem requireOutput_eq_ok_iff {graph : Graph} {id : NodeId} {port : Port} :
    graph.requireOutput id = .ok port ↔
      ∃ node, graph.node? id = some node ∧ node.ports.output = true ∧
        (⟨node.id, .output⟩ : Port) = port := by
  simp only [requireOutput, bind_eq_ok_iff, require_eq_ok_iff]
  refine exists_congr fun node => and_congr_right fun _ => ?_
  unfold Node.outputPort?
  cases node.ports.output <;> simp

/-- An input port is handed out for a node that has one. -/
theorem requireInput_eq_ok_iff {graph : Graph} {id : NodeId} {port : Port} :
    graph.requireInput id = .ok port ↔
      ∃ node, graph.node? id = some node ∧ node.ports.input = true ∧
        (⟨node.id, .input⟩ : Port) = port := by
  simp only [requireInput, bind_eq_ok_iff, require_eq_ok_iff]
  refine exists_congr fun node => and_congr_right fun _ => ?_
  unfold Node.inputPort?
  cases node.ports.input <;> simp

theorem requireSide_eq_ok_iff {port : Port} {side : Side} {checked : Unit} :
    requireSide port side = .ok checked ↔ port.side = side := by
  unfold requireSide
  split <;> simp_all

theorem hasOutput_iff {graph : Graph} {id : NodeId} :
    graph.HasOutput id ↔ ∃ port, graph.requireOutput id = .ok port := by
  simp only [requireOutput_eq_ok_iff]
  constructor
  · rintro ⟨node, held, present⟩
    exact ⟨_, node, held, present, rfl⟩
  · rintro ⟨_, node, held, present, -⟩
    exact ⟨node, held, present⟩

theorem hasInput_iff {graph : Graph} {id : NodeId} :
    graph.HasInput id ↔ ∃ port, graph.requireInput id = .ok port := by
  simp only [requireInput_eq_ok_iff]
  constructor
  · rintro ⟨node, held, present⟩
    exact ⟨_, node, held, present, rfl⟩
  · rintro ⟨_, node, held, present, -⟩
    exact ⟨node, held, present⟩

/-- A connection is added exactly when it runs from an output port to an input port that
nodes of the graph have. It gets the next handle. -/
theorem addConnection_eq_ok_iff {graph extended : Graph} {source target : Port}
    {id : ConnectionId} :
    graph.addConnection source target = .ok (id, extended) ↔
      source.side = .output ∧ target.side = .input ∧
        graph.HasOutput source.node ∧ graph.HasInput target.node ∧
        id = ⟨graph.connectionArena.nextIndex⟩ ∧
        extended =
          { graph with
            connectionArena :=
              graph.connectionArena.insert
                ⟨⟨graph.connectionArena.nextIndex⟩, source.node, target.node⟩ } := by
  simp only [addConnection, bind_eq_ok_iff, requireSide_eq_ok_iff, hasOutput_iff, hasInput_iff]
  constructor
  · rintro ⟨_, leaving, _, entering, output, hasOutput, input, hasInput, added⟩
    cases added
    exact ⟨leaving, entering, ⟨output, hasOutput⟩, ⟨input, hasInput⟩, rfl, rfl⟩
  · rintro ⟨leaving, entering, ⟨output, hasOutput⟩, ⟨input, hasInput⟩, rfl, rfl⟩
    exact ⟨(), leaving, (), entering, output, hasOutput, input, hasInput, rfl⟩

/-- Connecting two nodes adds the connection between the ports that they hand out. -/
theorem connect_eq_ok_iff {graph extended : Graph} {source target : NodeId}
    {id : ConnectionId} :
    graph.connect source target = .ok (id, extended) ↔
      ∃ leaving entering, graph.requireOutput source = .ok leaving ∧
        graph.requireInput target = .ok entering ∧
        graph.addConnection leaving entering = .ok (id, extended) := by
  simp only [connect, bind_eq_ok_iff]
  constructor
  · rintro ⟨leaving, output, entering, input, added⟩
    exact ⟨leaving, entering, output, input, added⟩
  · rintro ⟨leaving, entering, output, input, added⟩
    exact ⟨leaving, output, entering, input, added⟩

/-! ## Edits are elementary changes -/

theorem addConnection_changes (graph : Graph) (source target : Port) :
    Changes graph (graph.afterAttempt (graph.addConnection source target)) := by
  cases attempt : graph.addConnection source target with
  | error refusal => exact .refl
  | ok added =>
      obtain ⟨id, extended⟩ := added
      obtain ⟨-, -, leaves, enters, -, rfl⟩ := addConnection_eq_ok_iff.mp attempt
      exact .single (.insertConnection leaves enters)

theorem connect_changes (graph : Graph) (source target : NodeId) :
    Changes graph (graph.afterAttempt (graph.connect source target)) := by
  cases attempt : graph.connect source target with
  | error refusal => exact .refl
  | ok added =>
      obtain ⟨id, extended⟩ := added
      obtain ⟨leaving, entering, -, -, inserted⟩ := connect_eq_ok_iff.mp attempt
      have changes := addConnection_changes graph leaving entering
      rw [inserted] at changes
      exact changes

theorem removeNode_changes (graph : Graph) (id : NodeId) :
    Changes graph (graph.removeNode id).2 := by
  unfold removeNode
  cases held : graph.node? id with
  | none => exact .refl
  | some node => exact .single (.eraseNode held)

theorem removeConnection_changes (graph : Graph) (id : ConnectionId) :
    Changes graph (graph.removeConnection id).2 := by
  unfold removeConnection
  cases graph.connection? id with
  | none => exact .refl
  | some connection => exact .single (.eraseConnection id)

theorem setDocument_changes (graph : Graph) (id : NodeId) (document : Option String) :
    Changes graph (graph.apply (.setDocument id document)) := by
  simp only [apply, setDocument]
  cases graph.require id with
  | error refusal => exact .refl
  | ok node => exact .single (.setDocument id document)

theorem addNodes_changes (graph : Graph) (drafts : List NodeDraft) :
    Changes graph (graph.addNodes drafts).2 := by
  induction drafts generalizing graph with
  | nil => exact .refl
  | cons draft drafts inductionHypothesis =>
      exact .head (.insertNode draft) (inductionHypothesis (graph.addNode draft).2)

theorem addTo_changes (ids : List NodeId) (graph : Graph)
    (connection : Project.FileConnection) :
    Changes graph (connection.addTo ids graph) := by
  unfold Project.FileConnection.addTo
  split
  · exact connect_changes graph _ _
  · exact .refl

theorem foldl_addTo_changes (ids : List NodeId) (graph : Graph)
    (connections : List Project.FileConnection) :
    Changes graph (connections.foldl (Project.FileConnection.addTo ids) graph) := by
  induction connections generalizing graph with
  | nil => exact .refl
  | cons connection connections inductionHypothesis =>
      exact (addTo_changes ids graph connection).trans (inductionHypothesis _)

/-- A load clears the graph, adds the nodes and then the connections. -/
theorem load_changes (graph : Graph) (file : Project.File) : Changes graph (graph.load file) :=
  (Relation.ReflTransGen.single .clear).trans
    ((addNodes_changes _ _).trans (foldl_addTo_changes _ _ _))

/-- Every edit, carried out or refused, is a sequence of elementary changes. -/
theorem apply_changes (graph : Graph) (edit : Edit) : Changes graph (graph.apply edit) := by
  cases edit with
  | addNode draft => exact .single (.insertNode draft)
  | removeNode id => exact removeNode_changes graph id
  | addConnection source target => exact addConnection_changes graph source target
  | connect source target => exact connect_changes graph source target
  | removeConnection id => exact removeConnection_changes graph id
  | setDocument id document => exact setDocument_changes graph id document
  | clear => exact .single .clear
  | load file => exact load_changes graph file

/-- A whole history is a sequence of elementary changes. -/
theorem run_changes (graph : Graph) (edits : List Edit) : Changes graph (graph.run edits) := by
  induction edits generalizing graph with
  | nil => exact .refl
  | cons edit edits inductionHypothesis =>
      exact (apply_changes graph edit).trans (inductionHypothesis (graph.apply edit))

/-- A further edit keeps a history. -/
theorem Reachable.apply {graph : Graph} (reachable : graph.Reachable) (edit : Edit) :
    (graph.apply edit).Reachable := by
  obtain ⟨edits, rfl⟩ := reachable
  exact ⟨edits ++ [edit], List.foldl_append⟩

/-- What holds of the empty graph and survives every elementary change holds of every
graph with a history. -/
theorem Reachable.induction {holds : Graph → Prop} {graph : Graph}
    (reachable : graph.Reachable) (initial : holds empty)
    (preserved : ∀ before after, Change before after → holds before → holds after) :
    holds graph := by
  obtain ⟨edits, made⟩ := reachable
  have changes : Changes empty graph := made ▸ run_changes empty edits
  clear made
  induction changes with
  | refl => exact initial
  | tail _ change inductionHypothesis => exact preserved _ _ change inductionHypothesis

end Graph

end MotionSteps
