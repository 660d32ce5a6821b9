import MotionSteps.Proofs.Report.Counts
import MotionSteps.Proofs.Report.Passing
import MotionSteps.Proofs.Step.Issues
import MotionSteps.Proofs.Step.Kind

/-!
# The report describes the program

The analysis compiles a graph by itself and joins what it finds out about a node to the step
of that node. `Describes` says what the joined entries have to do with the program that is
compiled from the same graph. `report_of_reachable` shows that they describe it, position by
position, and that there is a report exactly when there is a program. A node that a connection
leads to always has a step, so an entry never falls back on the name of a handle.
-/

namespace MotionSteps

/-- What an entry says about a step, and about the node from which it was compiled. -/
structure StepEntry.Describes (entry : StepEntry) (graph : Graph) (sequence : Sequence)
    (step : Step) (node : Node) : Prop where
  stepId : entry.stepId = step.id
  kind : entry.kind = step.kind
  params : entry.params = step.params
  label : entry.label = node.label
  typeLabel : entry.typeLabel = node.typeLabel
  /-- The document is missing when the extraction of the node says so. -/
  hasDocument : entry.hasDocument = false ↔
    .missing ∈ (node.kind.extractText node.document).issues
  noPort : entry.outgoing = .noPort ↔ node.ports.output = false
  unconnected : entry.outgoing = .unconnected ↔
    node.ports.output = true ∧ graph.outgoing node.id = []
  /-- The connections are counted, and the first one leads to the node of the step named. -/
  connected : ∀ first others, node.ports.output = true →
    graph.outgoing node.id = first :: others →
    ∃ (position : Nat) (following : Step), graph.linearize.order[position]? = some first.target ∧
      sequence.steps[position]? = some following ∧
      entry.outgoing = .connected following.id (others.length + 1)

namespace Graph

/-- A report and a program of one graph say the same. -/
structure Describes (graph : Graph) (report : Report) (sequence : Sequence) : Prop where
  length_eq : report.steps.length = sequence.steps.length
  entry_at : ∀ (position : Nat) (entry : StepEntry) (step : Step),
    report.steps[position]? = some entry → sequence.steps[position]? = some step →
    ∃ node, graph.linearize.order[position]? = some node.id ∧ graph.node? node.id = some node ∧
      entry.Describes graph sequence step node
  /-- The kinds of the steps are listed in the order in which they first occur. -/
  counts_eq : ∃ kinds, ByFirstOccurrence kinds (sequence.steps.map Step.kind) ∧
    report.counts = kinds.map fun kind => ⟨kind.name, (sequence.steps.map Step.kind).count kind⟩
  /-- No two of them are printed alike. -/
  names_nodup : (report.counts.map KindCount.kind).Nodup
  sum_eq : (report.counts.map KindCount.count).sum = sequence.steps.length

variable {graph : Graph}

/-! ## Where a node leads -/

section

variable {steps : List CompiledStep} {node : Node}

theorem outgoingOf_eq_noPort_iff :
    graph.outgoingOf steps node = .noPort ↔ node.ports.output = false := by
  unfold outgoingOf
  cases node.ports.output with
  | false => simp
  | true =>
      cases graph.outgoing node.id <;> simp

theorem outgoingOf_eq_unconnected_iff :
    graph.outgoingOf steps node = .unconnected ↔
      node.ports.output = true ∧ graph.outgoing node.id = [] := by
  unfold outgoingOf
  cases node.ports.output with
  | false => simp
  | true =>
      cases graph.outgoing node.id <;> simp

theorem outgoingOf_of_cons {first : Connection} {others : List Connection} {id : String}
    (port : node.ports.output = true) (leads : graph.outgoing node.id = first :: others)
    (named : stepIdOf? steps first.target = some id) :
    graph.outgoingOf steps node = .connected id (others.length + 1) := by
  simp only [outgoingOf, port, if_true, leads, named, Option.getD_some]

end

/-! ## Entries and steps -/

namespace WellFormed

/-- Every step has an entry. -/
theorem isSome_entryOf? (wellFormed : graph.WellFormed) :
    ∀ compiled ∈ graph.compiledSteps graph.linearize,
      (graph.entryOf? (graph.compiledSteps graph.linearize) compiled).isSome := by
  intro compiled member
  obtain ⟨index, there⟩ := List.mem_iff_getElem?.mp member
  obtain ⟨node, held, -, -⟩ := wellFormed.of_compiledSteps_at there
  rw [entryOf?, held, Option.map_some, Option.isSome_some]

/-- The entry at a position is that of the step there. -/
theorem getElem?_entries (wellFormed : graph.WellFormed) (position : Nat) :
    ((graph.compiledSteps graph.linearize).filterMap
        (graph.entryOf? (graph.compiledSteps graph.linearize)))[position]? =
      (graph.compiledSteps graph.linearize)[position]?.bind
        (graph.entryOf? (graph.compiledSteps graph.linearize)) :=
  getElem?_filterMap_of_isSome wellFormed.isSome_entryOf? position

theorem length_entries (wellFormed : graph.WellFormed) :
    ((graph.compiledSteps graph.linearize).filterMap
        (graph.entryOf? (graph.compiledSteps graph.linearize))).length =
      (graph.compiledSteps graph.linearize).length :=
  List.filterMap_length_eq_length.mpr wellFormed.isSome_entryOf?

/-- The first connection of a node leads to a node with a step, which the entry names. -/
theorem outgoingOf_connected (wellFormed : graph.WellFormed) {node : Node} {first : Connection}
    {others : List Connection} (port : node.ports.output = true)
    (leads : graph.outgoing node.id = first :: others) :
    ∃ (position : Nat) (following : Step), graph.linearize.order[position]? = some first.target ∧
      ((graph.compiledSteps graph.linearize).map CompiledStep.step)[position]? = some following ∧
      graph.outgoingOf (graph.compiledSteps graph.linearize) node =
        .connected following.id (others.length + 1) := by
  have listed : first ∈ graph.outgoing node.id := leads ▸ List.mem_cons_self
  have live := (wellFormed.ends_live (List.mem_filter.mp listed).1).2
  obtain ⟨position, there⟩ := List.mem_iff_getElem?.mp (wellFormed.mem_order_iff.mpr live)
  obtain ⟨_, following, -, stepThere, id, -, -⟩ := wellFormed.exists_step_at there
  refine ⟨position, following, there, stepThere, ?_⟩
  rw [id]
  exact outgoingOf_of_cons port leads (wellFormed.stepIdOf?_eq there)

/-- An entry that is made from a step and a node describes them. -/
theorem describes (wellFormed : graph.WellFormed) (name : String) (step : Step) (node : Node) :
    StepEntry.Describes
      { stepId := step.id
        kind := step.kind
        label := node.label
        typeLabel := node.typeLabel
        hasDocument := node.hasDocument
        params := step.params
        outgoing := graph.outgoingOf (graph.compiledSteps graph.linearize) node }
      graph ⟨name, (graph.compiledSteps graph.linearize).map CompiledStep.step⟩ step node where
  stepId := rfl
  kind := rfl
  params := rfl
  label := rfl
  typeLabel := rfl
  hasDocument := node.hasDocument_eq_false_iff
  noPort := outgoingOf_eq_noPort_iff
  unconnected := outgoingOf_eq_unconnected_iff
  connected _ _ port leads := wellFormed.outgoingOf_connected port leads

/-- The entry at a position describes the step there. -/
theorem describes_entry (wellFormed : graph.WellFormed) (name : String) {position : Nat}
    {entry : StepEntry} {step : Step}
    (entryThere : ((graph.compiledSteps graph.linearize).filterMap
      (graph.entryOf? (graph.compiledSteps graph.linearize)))[position]? = some entry)
    (stepThere : ((graph.compiledSteps graph.linearize).map CompiledStep.step)[position]? =
      some step) :
    ∃ node, graph.linearize.order[position]? = some node.id ∧ graph.node? node.id = some node ∧
      entry.Describes graph ⟨name, (graph.compiledSteps graph.linearize).map CompiledStep.step⟩
        step node := by
  rw [wellFormed.getElem?_entries] at entryThere
  obtain ⟨compiled, there, described⟩ := Option.bind_eq_some_iff.mp entryThere
  rw [List.getElem?_map, there] at stepThere
  obtain rfl := Option.some.inj stepThere
  obtain ⟨node, held, inOrder, -⟩ := wellFormed.of_compiledSteps_at there
  rw [entryOf?, held] at described
  obtain rfl := Option.some.inj described
  rw [← wellFormed.id_of_node? held] at inOrder held
  exact ⟨node, inOrder, held, wellFormed.describes name compiled.step node⟩

/-- No two kinds of a program are printed alike: a kind of its own has a name that means no
known kind. -/
theorem namedApart (wellFormed : graph.WellFormed) :
    NamedApart (((graph.compiledSteps graph.linearize).map CompiledStep.step).map Step.kind) := by
  have named : ∀ kind ∈ ((graph.compiledSteps graph.linearize).map CompiledStep.step).map Step.kind,
      StepKind.ofLabel kind.name = kind := by
    intro kind member
    obtain ⟨step, listed, rfl⟩ := List.mem_map.mp member
    obtain ⟨compiled, compiledListed, rfl⟩ := List.mem_map.mp listed
    obtain ⟨node, -, position, -, rfl⟩ := wellFormed.mem_compiledSteps_iff.mp compiledListed
    rw [Node.compiled_kind]
    exact StepKind.ofLabel_name_ofLabel node.typeLabel
  intro first firstMember second secondMember same
  rw [← named first firstMember, same, named second secondMember]

end WellFormed

/-- There is no report exactly when there is no program, for the same reason. -/
theorem analyze_eq_error_iff (settings : Settings) {failure : Failure} :
    graph.analyze = .error failure ↔ graph.compile settings = .error failure := by
  by_cases nothing : graph.nodes = []
  · have noNodes : graph.isEmpty = true := by simp [isEmpty, nothing]
    simp [analyze, compile, noNodes]
  · rw [analyze_of_nodes_ne_nil nothing, compile_of_nodes_ne_nil settings nothing]
    simp

/-- What the report on a graph with a history says about its program. There is no report exactly
when there is no program, for the same reason. Otherwise the report describes the program that
is compiled with any settings. -/
theorem report_of_reachable (reachable : graph.Reachable) (settings : Settings) :
    (∀ failure, graph.analyze = .error failure ↔ graph.compile settings = .error failure) ∧
      ∀ report, graph.analyze = .ok report →
        ∃ sequence, graph.compile settings = .ok sequence ∧ graph.Describes report sequence := by
  refine ⟨fun failure => analyze_eq_error_iff settings, fun report analyzed => ?_⟩
  have wellFormed := reachable.wellFormed
  have nonempty : graph.nodes ≠ [] := by
    intro nothing
    simp [analyze, isEmpty, nothing] at analyzed
  rw [analyze_of_nodes_ne_nil nonempty] at analyzed
  obtain rfl := Except.ok.inj analyzed
  refine ⟨_, compile_of_nodes_ne_nil settings nonempty, ?_⟩
  have names : ((graph.compiledSteps graph.linearize).map fun compiled => compiled.step.kind.name) =
      (((graph.compiledSteps graph.linearize).map CompiledStep.step).map Step.kind).map
        StepKind.name := by
    simp only [List.map_map, Function.comp_def]
  obtain ⟨kinds, listed, counted⟩ := KindCount.exists_tally_eq wellFormed.namedApart
  refine ⟨?_, fun _ _ _ => wellFormed.describes_entry _, ⟨kinds, listed, ?_⟩, ?_, ?_⟩
  · rw [wellFormed.length_entries, List.length_map]
  · rw [names, counted]
  · rw [names, counted, List.map_map]
    refine listed.nodup.map_on fun first firstListed second secondListed same => ?_
    exact wellFormed.namedApart first ((listed.mem_iff first).mp firstListed) second
      ((listed.mem_iff second).mp secondListed) same
  · rw [KindCount.sum_tally, List.length_map, List.length_map]

/-- A history of a graph in which two labels mean one kind, one means none that is known, and
a node has two connections. -/
def variedHistory : List Edit :=
  busyHistory ++ [
    .addNode { typeLabel := " wait" },
    .addNode { typeLabel := "pause" },
    .connect ⟨2⟩ ⟨6⟩]

theorem report_after_variedHistory :
    (empty.run variedHistory).Reachable ∧
      ∃ report sequence, (empty.run variedHistory).analyze = .ok report ∧
        (empty.run variedHistory).compile {} = .ok sequence ∧
        (empty.run variedHistory).Describes report sequence ∧
        report.counts = [⟨"START", 1⟩, ⟨"WAIT", 2⟩, ⟨"GOTO", 1⟩, ⟨"PAUSE", 1⟩] ∧
        (report.steps.map StepEntry.outgoing) =
          [.connected "node_02" 1, .connected "node_02" 2, .connected "node_02" 1, .unconnected,
            .unconnected] := by
  have reachable : (empty.run variedHistory).Reachable := ⟨variedHistory, rfl⟩
  have nonempty : (empty.run variedHistory).nodes ≠ [] := by decide +kernel
  have analyzed := analyze_of_nodes_ne_nil nonempty
  obtain ⟨sequence, compiled, describes⟩ := (report_of_reachable reachable {}).2 _ analyzed
  exact ⟨reachable, _, sequence, analyzed, compiled, describes, by decide +kernel,
    by decide +kernel⟩

end Graph

end MotionSteps
