import MotionSteps.Proofs.Graph.ImpliedPorts
import MotionSteps.Proofs.Report.Cycles
import MotionSteps.Proofs.Report.Placement

/-!
# Starts begin and ends end

Unless an edit gives a node ports of its own, no connection enters a start or leaves an end, in
whatever spelling their labels mean these kinds. So the walk meets a start at its first node only
and an end at its last one, neither is on a cycle, and a second start is out of reach.
`terminals_of_impliedPorts` states this together with what the report says about further starts.
-/

namespace MotionSteps

/-- What was found about steps to which nothing leads from the entry. -/
def Report.outOfReach (report : Report) : List Diagnostic :=
  (report.withCode "E001").filter fun diagnostic =>
    diagnostic.finding.message == "Unconnected node: not reachable from START"

namespace Graph

/-- A node of a kind has the handle. -/
def HasKind (graph : Graph) (id : NodeId) (kind : StepKind) : Prop :=
  ∃ node, graph.node? id = some node ∧ node.kind = kind

/-- A report says that nothing leads to a node from the entry, at the step of the node and once. -/
def ReportsOutOfReach (graph : Graph) (report : Report) (id : NodeId) : Prop :=
  ∃ name diagnostic, graph.Names report id name ∧ report.about name "E001" = [diagnostic] ∧
    diagnostic.place = some ⟨name, id⟩ ∧
    diagnostic.finding.message = "Unconnected node: not reachable from START"

variable {graph : Graph}

theorem HasKind.live {id : NodeId} {kind : StepKind} (hasKind : graph.HasKind id kind) :
    graph.Live id := by
  obtain ⟨node, held, -⟩ := hasKind
  exact ⟨node, held⟩

/-! ## Connections of starts and ends -/

theorem starts_sublist : graph.starts.Sublist graph.nodeIds :=
  List.filter_sublist.map Node.id

/-- The listed starts are the nodes of that kind. -/
theorem WellFormed.mem_starts_iff (wellFormed : graph.WellFormed) {id : NodeId} :
    id ∈ graph.starts ↔ graph.HasKind id .start := by
  simp only [starts, List.mem_map, List.mem_filter, decide_eq_true_eq]
  constructor
  · rintro ⟨node, ⟨member, kind⟩, rfl⟩
    exact ⟨node, wellFormed.mem_nodes_iff.mp member, kind⟩
  · rintro ⟨node, held, kind⟩
    have own := wellFormed.id_of_node? held
    exact ⟨node, ⟨wellFormed.mem_nodes_iff.mpr (by rw [own, held]), kind⟩, own⟩

namespace PortsFit

variable {source target : NodeId}

/-- The node of a handle has no port that its kind lacks. -/
theorem within (fits : graph.PortsFit) (wellFormed : graph.WellFormed) {id : NodeId} {node : Node}
    {kind : StepKind} (held : graph.node? id = some node) (hasKind : graph.HasKind id kind) :
    node.ports.Within kind.ports := by
  obtain ⟨other, otherHeld, rfl⟩ := hasKind
  obtain rfl := Option.some.inj (held.symm.trans otherHeld)
  exact fits node (wellFormed.mem_nodes_iff.mpr (by rw [wellFormed.id_of_node? held, held]))

/-- Nothing leads to a start. -/
theorem not_leads_start (fits : graph.PortsFit) (wellFormed : graph.WellFormed)
    (start : graph.HasKind target .start) : ¬ graph.Leads source target := by
  intro leads
  obtain ⟨connection, leaves, rfl⟩ := List.mem_map.mp leads
  obtain ⟨node, held, input⟩ := wellFormed.target_input connection (List.mem_filter.mp leaves).1
  exact Bool.false_ne_true ((fits.within wellFormed held start).input input)

/-- An end leads nowhere. -/
theorem not_finish_leads (fits : graph.PortsFit) (wellFormed : graph.WellFormed)
    (finish : graph.HasKind source .finish) : ¬ graph.Leads source target := by
  intro leads
  obtain ⟨connection, leaves, rfl⟩ := List.mem_map.mp leads
  obtain ⟨listed, origin⟩ := List.mem_filter.mp leaves
  obtain rfl : connection.source = source := beq_iff_eq.mp origin
  obtain ⟨node, held, output⟩ := wellFormed.source_output connection listed
  exact Bool.false_ne_true ((fits.within wellFormed held finish).output output)

/-- A start is below no other node. -/
theorem eq_of_reflTransGen_start (fits : graph.PortsFit) (wellFormed : graph.WellFormed)
    (start : graph.HasKind target .start) (path : Relation.ReflTransGen graph.Leads source target) :
    source = target := by
  rcases path.cases_tail with same | ⟨other, -, leads⟩
  · exact same.symm
  · exact absurd leads (fits.not_leads_start wellFormed start)

/-- Neither a start nor an end leads to itself. -/
theorem not_circle (fits : graph.PortsFit) (wellFormed : graph.WellFormed) {id : NodeId}
    (terminal : graph.HasKind id .start ∨ graph.HasKind id .finish) :
    ¬ Relation.TransGen graph.Leads id id := by
  intro circle
  rcases terminal with start | finish
  · obtain ⟨other, -, leads⟩ := Relation.TransGen.tail'_iff.mp circle
    exact fits.not_leads_start wellFormed start leads
  · obtain ⟨other, leads, -⟩ := Relation.TransGen.head'_iff.mp circle
    exact fits.not_finish_leads wellFormed finish leads

/-! ## The walk -/

variable {entry id : NodeId} {path : List NodeId} {position : Nat}

/-- A walk has a start at its first position only: another position is led to. -/
theorem eq_zero_of_start (fits : graph.PortsFit) (wellFormed : graph.WellFormed)
    (follows : graph.FirstPath entry path) (there : path[position]? = some id)
    (start : graph.HasKind id .start) : position = 0 := by
  cases position with
  | zero => rfl
  | succ position =>
      obtain ⟨inside, -⟩ := List.getElem?_eq_some_iff.mp there
      have before := List.getElem?_eq_getElem (show position < path.length by omega)
      have leads := mem_successors_of_firstSuccessor? (follows.firstSuccessor?_getElem? before there)
      exact absurd leads (fits.not_leads_start wellFormed start)

/-- A walk has an end at its last position only: another position leads on. -/
theorem eq_last_of_finish (fits : graph.PortsFit) (wellFormed : graph.WellFormed)
    (follows : graph.FirstPath entry path) (there : path[position]? = some id)
    (finish : graph.HasKind id .finish) : position + 1 = path.length := by
  obtain ⟨inside, -⟩ := List.getElem?_eq_some_iff.mp there
  by_contra further
  have behind := List.getElem?_eq_getElem (show position + 1 < path.length by omega)
  have leads := mem_successors_of_firstSuccessor? (follows.firstSuccessor?_getElem? there behind)
  exact fits.not_finish_leads wellFormed finish leads

/-! ## Further starts -/

variable {report : Report}

/-- A start that is not the entry is reported as out of reach. -/
theorem reportsOutOfReach (fits : graph.PortsFit) (wellFormed : graph.WellFormed)
    (analyzed : graph.analyze = .ok report) (first : graph.starts.head? = some entry)
    (start : graph.HasKind id .start) (further : entry ≠ id) :
    graph.ReportsOutOfReach report id := by
  have walk := wellFormed.isFirstWalk_chain (linearize_entry.trans first)
  have missed : id ∉ graph.linearize.chain := by
    intro member
    obtain ⟨position, there⟩ := List.mem_iff_getElem?.mp member
    obtain rfl := fits.eq_zero_of_start wellFormed walk.follows there start
    rw [← List.head?_eq_getElem?, walk.follows.head?_eq] at there
    exact further (Option.some.inj there)
  obtain ⟨name, -, named⟩ := wellFormed.exists_names analyzed start.live
  obtain ⟨diagnostic, about, place, -, -, unreachable⟩ :=
    (wellFormed.reportsWalk analyzed first named).missed missed
  refine ⟨name, diagnostic, named, about, place, unreachable.mpr fun path => further ?_⟩
  exact fits.eq_of_reflTransGen_start wellFormed start path

/-- All starts but one are reported as out of reach. -/
theorem length_starts_le (fits : graph.PortsFit) (wellFormed : graph.WellFormed)
    (analyzed : graph.analyze = .ok report) :
    graph.starts.length ≤ report.outOfReach.length + 1 := by
  cases starts : graph.starts with
  | nil => simp
  | cons entry others =>
      have distinct : (entry :: others).Nodup := by
        rw [← starts]
        exact wellFormed.nodeIds_nodup.sublist starts_sublist
      obtain ⟨fresh, distinctOthers⟩ := List.nodup_cons.mp distinct
      have reported : others.map some ⊆
          report.outOfReach.map fun diagnostic => diagnostic.place.map Place.node := by
        intro _ listed
        obtain ⟨id, member, rfl⟩ := List.mem_map.mp listed
        have start : graph.HasKind id .start := by
          rw [← wellFormed.mem_starts_iff, starts]
          exact List.mem_cons_of_mem _ member
        have further : entry ≠ id := by
          rintro rfl
          exact fresh member
        obtain ⟨name, diagnostic, -, about, place, message⟩ :=
          fits.reportsOutOfReach wellFormed analyzed (by rw [starts]; rfl) start further
        refine List.mem_map.mpr ⟨diagnostic, List.mem_filter.mpr ⟨?_, by simpa using message⟩, ?_⟩
        · rw [Report.about_eq_filter_withCode] at about
          exact (List.mem_filter.mp (about ▸ List.mem_singleton_self diagnostic)).1
        · rw [place, Option.map_some]
      have counted := ((distinctOthers.map (Option.some_injective _)).subperm reported).length_le
      rw [List.length_map, List.length_map] at counted
      simpa using counted

end PortsFit

/-- Several starts are found. -/
theorem startFindings_of_several (several : 2 ≤ graph.starts.length) :
    graph.startFindings = [.severalStarts graph.starts.length] := by
  unfold startFindings
  split
  · next none => simp [none] at several
  · next first one => simp [one] at several
  · rfl

/-- What holds of the starts and ends of a graph whose history gives no node ports of its own.
With an entry the walk has a start at its first position only and an end at its last one only.
No start and no end is on a cycle. Every start but the entry is reported as out of reach, and
several starts are reported as such, so all but one of them are counted there. -/
theorem terminals_of_impliedPorts (reachable : graph.ReachableByImpliedPorts) :
    (∀ entry, graph.linearize.entry = some entry →
      ∀ (position : Nat) (id : NodeId), graph.linearize.chain[position]? = some id →
        (graph.HasKind id .start → position = 0) ∧
        (graph.HasKind id .finish → position + 1 = graph.linearize.chain.length)) ∧
      (∀ cycle ∈ graph.cycles, ∀ id ∈ cycle,
        ¬ graph.HasKind id .start ∧ ¬ graph.HasKind id .finish) ∧
      (graph.nodes ≠ [] → ∃ report, graph.analyze = .ok report) ∧
      ∀ report, graph.analyze = .ok report →
        (∀ id, graph.HasKind id .start → graph.linearize.entry ≠ some id →
          graph.ReportsOutOfReach report id) ∧
        (2 ≤ graph.starts.length →
          report.withCode "W011" = [⟨.severalStarts graph.starts.length, none⟩] ∧
            graph.starts.length - 1 ≤ report.outOfReach.length) := by
  have fits := reachable.portsFit
  have wellFormed := reachable.reachable.wellFormed
  refine ⟨fun entry first position id there => ?_, fun cycle listed id member => ?_,
    fun nonempty => ⟨_, analyze_of_nodes_ne_nil nonempty⟩, fun report analyzed => ⟨?_, ?_⟩⟩
  · have walk := wellFormed.isFirstWalk_chain first
    exact ⟨fits.eq_zero_of_start wellFormed walk.follows there,
      fits.eq_last_of_finish wellFormed walk.follows there⟩
  · have circle := ((wellFormed.together_iff id id).mp ⟨cycle, listed, member, member⟩).1
    exact not_or.mp fun terminal => fits.not_circle wellFormed terminal circle
  · intro id start further
    rw [linearize_entry] at further
    cases first : graph.starts.head? with
    | none =>
        have listed := wellFormed.mem_starts_iff.mpr start
        rw [List.head?_eq_none_iff.mp first] at listed
        cases listed
    | some entry =>
        refine fits.reportsOutOfReach wellFormed analyzed first start ?_
        rintro rfl
        exact further first
  · intro several
    refine ⟨?_, Nat.sub_le_of_le_add (fits.length_starts_le wellFormed analyzed)⟩
    rw [withCode_start analyzed (by decide), startFindings_of_several several]
    rfl

/-- A history with starts and an end in several spellings, loaded and added, and with refused
connections into a start and out of an end. -/
def crowdedHistory : List Edit := [
  .load
    { nodes := [⟨"WAIT", "w", 0, 0, none⟩, ⟨"start", "s", 0, 0, none⟩, ⟨" End", "e", 0, 0, none⟩]
      connections := [⟨1, 0⟩, ⟨0, 2⟩, ⟨2, 0⟩, ⟨0, 1⟩] },
  .addNode { typeLabel := " START " },
  .addNode { typeLabel := "Start" },
  .connect ⟨3⟩ ⟨0⟩,
  .connect ⟨0⟩ ⟨0⟩,
  .connect ⟨0⟩ ⟨4⟩,
  .connect ⟨2⟩ ⟨0⟩]

theorem terminals_after_crowdedHistory :
    (∀ edit ∈ crowdedHistory, edit.ImpliesPorts) ∧
      (empty.run crowdedHistory).ReachableByImpliedPorts ∧
      (empty.run crowdedHistory).linearize.entry = some ⟨1⟩ ∧
      (empty.run crowdedHistory).linearize.chain = [⟨1⟩, ⟨0⟩, ⟨2⟩] ∧
      ¬ (empty.run crowdedHistory).HasKind ⟨0⟩ .finish ∧
      (empty.run crowdedHistory).cycles = [[⟨0⟩]] ∧
      (empty.run crowdedHistory).starts = [⟨1⟩, ⟨3⟩, ⟨4⟩] ∧
      ∃ report, (empty.run crowdedHistory).analyze = .ok report ∧
        (empty.run crowdedHistory).ReportsOutOfReach report ⟨4⟩ ∧
        report.withCode "W011" = [⟨.severalStarts 3, none⟩] ∧ 2 ≤ report.outOfReach.length := by
  have implied : ∀ edit ∈ crowdedHistory, edit.ImpliesPorts := by
    simp [crowdedHistory, Edit.ImpliesPorts]
  have reachable : (empty.run crowdedHistory).ReachableByImpliedPorts :=
    ⟨crowdedHistory, implied, rfl⟩
  have entry : (empty.run crowdedHistory).linearize.entry = some ⟨1⟩ := by decide +kernel
  have chain : (empty.run crowdedHistory).linearize.chain = [⟨1⟩, ⟨0⟩, ⟨2⟩] := by decide +kernel
  have starts : (empty.run crowdedHistory).starts = [⟨1⟩, ⟨3⟩, ⟨4⟩] := by decide +kernel
  have nonempty : (empty.run crowdedHistory).nodes ≠ [] := by decide +kernel
  have cycles : (empty.run crowdedHistory).cycles = [[⟨0⟩]] := by decide +kernel
  have further : (empty.run crowdedHistory).HasKind ⟨4⟩ .start := by
    rw [← reachable.reachable.wellFormed.mem_starts_iff, starts]
    simp
  obtain ⟨-, circular, reported, findings⟩ := terminals_of_impliedPorts reachable
  obtain ⟨report, analyzed⟩ := reported nonempty
  obtain ⟨others, several⟩ := findings report analyzed
  rw [starts] at several
  obtain ⟨counted, enough⟩ := several (by decide)
  exact ⟨implied, reachable, entry, chain,
    (circular [⟨0⟩] (by simp [cycles]) ⟨0⟩ (by simp)).2, cycles, starts, report, analyzed,
    others ⟨4⟩ further (by simp [entry]), counted, enough⟩

end Graph

end MotionSteps
