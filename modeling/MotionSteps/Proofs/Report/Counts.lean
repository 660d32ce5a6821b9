import Mathlib
import MotionSteps.Report.Analysis

/-!
# Counting kinds

A report counts the steps of each kind under the kind's printed name. As long as no two of the
kinds share a name, this counts the kinds themselves. Each that occurs is listed once, in the
order in which they first occur, with the number of its occurrences.
-/

namespace MotionSteps

/-- The kinds that occur in a list, each once, in the order in which they first occur. -/
structure ByFirstOccurrence (found kinds : List StepKind) : Prop where
  nodup : found.Nodup
  mem_iff : ∀ kind, kind ∈ found ↔ kind ∈ kinds
  ordered : found.Pairwise fun first second => kinds.idxOf first < kinds.idxOf second

namespace ByFirstOccurrence

variable {found kinds : List StepKind} {kind : StepKind}

/-- A kind that occurred before stays where it is. -/
theorem append_of_mem (listed : ByFirstOccurrence found kinds) (again : kind ∈ kinds) :
    ByFirstOccurrence found (kinds ++ [kind]) where
  nodup := listed.nodup
  mem_iff other := by
    rw [listed.mem_iff, List.mem_append, List.mem_singleton]
    constructor
    · exact .inl
    · rintro (old | rfl)
      · exact old
      · exact again
  ordered := by
    refine listed.ordered.imp_of_mem fun {first second} firstFound secondFound before => ?_
    rw [List.idxOf_append_of_mem ((listed.mem_iff first).mp firstFound),
      List.idxOf_append_of_mem ((listed.mem_iff second).mp secondFound)]
    exact before

/-- A kind that occurs for the first time is listed last. -/
theorem append_of_notMem (listed : ByFirstOccurrence found kinds) (fresh : kind ∉ kinds) :
    ByFirstOccurrence (found ++ [kind]) (kinds ++ [kind]) where
  nodup := by
    refine List.nodup_append.mpr ⟨listed.nodup, List.nodup_singleton kind, ?_⟩
    rintro other old _ new rfl
    rw [List.mem_singleton.mp new, listed.mem_iff] at old
    exact fresh old
  mem_iff other := by
    rw [List.mem_append, List.mem_append, listed.mem_iff]
  ordered := by
    have earlier : ∀ other ∈ found, (kinds ++ [kind]).idxOf other = kinds.idxOf other :=
      fun other old => List.idxOf_append_of_mem ((listed.mem_iff other).mp old)
    rw [List.pairwise_append]
    refine ⟨listed.ordered.imp_of_mem fun {first second} firstFound secondFound before => ?_,
      List.pairwise_singleton _ kind, ?_⟩
    · rw [earlier first firstFound, earlier second secondFound]
      exact before
    · rintro other old _ new
      rw [List.mem_singleton.mp new, earlier other old, List.idxOf_append_of_notMem fresh]
      have inside := List.idxOf_lt_length_iff.mpr ((listed.mem_iff other).mp old)
      omega

end ByFirstOccurrence

/-- No two of the kinds are printed alike. -/
def NamedApart (kinds : List StepKind) : Prop :=
  ∀ first ∈ kinds, ∀ second ∈ kinds, first.name = second.name → first = second

namespace KindCount

/-- The count of a kind that occurred before goes up by one. -/
theorem add_of_mem {found : List StepKind} {counts : StepKind → Nat} {kind : StepKind}
    (distinct : found.Nodup) (member : kind ∈ found) (apart : NamedApart found) :
    add kind.name (found.map fun other => ⟨other.name, counts other⟩) =
      found.map fun other => ⟨other.name, counts other + [kind].count other⟩ := by
  induction found with
  | nil => cases member
  | cons first rest inductionHypothesis =>
      obtain ⟨fresh, distinctRest⟩ := List.nodup_cons.mp distinct
      rw [List.map_cons, List.map_cons, add]
      by_cases same : first.name = kind.name
      · obtain rfl := apart first List.mem_cons_self kind member same
        have others : ∀ other ∈ rest, [first].count other = 0 := by
          intro other later
          refine List.count_eq_zero.mpr fun again => fresh ?_
          rwa [← List.mem_singleton.mp again]
        rw [if_pos rfl, List.count_singleton_self]
        refine congrArg _ (List.map_congr_left fun other later => ?_)
        rw [others other later, Nat.add_zero]
      · have other : kind ∈ rest := by
          rcases List.mem_cons.mp member with rfl | later
          · exact absurd rfl same
          · exact later
        have none : [kind].count first = 0 := by
          refine List.count_eq_zero.mpr fun again => same ?_
          rw [List.mem_singleton.mp again]
        rw [if_neg same, none, Nat.add_zero, inductionHypothesis distinctRest other
          fun one listedOne two listedTwo =>
            apart one (List.mem_cons_of_mem _ listedOne) two (List.mem_cons_of_mem _ listedTwo)]

/-- A kind that occurs for the first time is counted behind the others. -/
theorem add_of_notMem {counts : List KindCount} {name : String}
    (fresh : name ∉ counts.map KindCount.kind) : add name counts = counts ++ [⟨name, 1⟩] := by
  induction counts with
  | nil => rfl
  | cons first rest inductionHypothesis =>
      rw [List.map_cons, List.mem_cons, not_or] at fresh
      rw [add, if_neg (Ne.symm fresh.1), inductionHypothesis fresh.2, List.cons_append]

theorem tally_append (names : List String) (name : String) :
    tally (names ++ [name]) = add name (tally names) := by
  rw [tally, List.foldl_append]
  rfl

/-- A tally of names counts the kinds that bear them. The induction is on the kinds that were
counted so far. -/
theorem exists_tally_eq {kinds : List StepKind} (apart : NamedApart kinds) :
    ∃ found, ByFirstOccurrence found kinds ∧
      tally (kinds.map StepKind.name) = found.map fun kind => ⟨kind.name, kinds.count kind⟩ := by
  induction kinds using List.reverseRecOn with
  | nil => exact ⟨[], ⟨List.nodup_nil, fun _ => Iff.rfl, .nil⟩, rfl⟩
  | append_singleton kinds kind inductionHypothesis =>
      have apartBefore : NamedApart kinds := fun one listedOne two listedTwo =>
        apart one (List.mem_append_left _ listedOne) two (List.mem_append_left _ listedTwo)
      obtain ⟨found, listed, counted⟩ := inductionHypothesis apartBefore
      rw [List.map_append, List.map_singleton, tally_append, counted]
      simp only [List.count_append]
      by_cases again : kind ∈ kinds
      · refine ⟨found, listed.append_of_mem again, ?_⟩
        refine add_of_mem listed.nodup ((listed.mem_iff kind).mpr again) ?_
        exact fun one foundOne two foundTwo =>
          apartBefore one ((listed.mem_iff one).mp foundOne) two ((listed.mem_iff two).mp foundTwo)
      · refine ⟨found ++ [kind], listed.append_of_notMem again, ?_⟩
        have fresh : kind.name ∉
            (found.map fun other => (⟨other.name, kinds.count other⟩ : KindCount)).map
              KindCount.kind := by
          intro named
          obtain ⟨_, counted, same⟩ := List.mem_map.mp named
          obtain ⟨other, old, rfl⟩ := List.mem_map.mp counted
          have occurred := (listed.mem_iff other).mp old
          have alike := apart other (List.mem_append_left _ occurred) kind
            (List.mem_append_right _ (List.mem_singleton_self kind)) same
          exact again (alike ▸ occurred)
        rw [add_of_notMem fresh, List.map_append, List.map_singleton, List.count_singleton_self,
          List.count_eq_zero.mpr again, Nat.zero_add]
        refine congrArg (· ++ _) (List.map_congr_left fun other old => ?_)
        have none : [kind].count other = 0 := by
          refine List.count_eq_zero.mpr fun same => again ?_
          rw [← List.mem_singleton.mp same]
          exact (listed.mem_iff other).mp old
        rw [none, Nat.add_zero]

/-- One more step raises the sum of the counts by one. -/
theorem sum_add (name : String) (counts : List KindCount) :
    ((add name counts).map KindCount.count).sum = (counts.map KindCount.count).sum + 1 := by
  induction counts with
  | nil => rfl
  | cons first rest inductionHypothesis =>
      rw [add]
      split
      · simp only [List.map_cons, List.sum_cons]
        omega
      · simp only [List.map_cons, List.sum_cons, inductionHypothesis]
        omega

/-- The counts sum to the number of steps. -/
theorem sum_tally (names : List String) :
    ((tally names).map KindCount.count).sum = names.length := by
  induction names using List.reverseRecOn with
  | nil => rfl
  | append_singleton names name inductionHypothesis =>
      rw [tally_append, sum_add, inductionHypothesis, List.length_append, List.length_singleton]

end KindCount

end MotionSteps
