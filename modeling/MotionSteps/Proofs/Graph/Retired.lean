import MotionSteps.Proofs.Graph.WellFormed

/-!
# Retired handles

A handle is retired once it was handed out and what it named is gone. Elementary changes
hand out new handles only, so a retired handle names nothing ever after: `Retains.changes`
says so of every sequence of changes. In particular a load, which clears the graph first,
retires every handle that was in use before it.
-/

namespace MotionSteps

namespace Arena

variable {α : Type}

/-- Everything that was handed out stays handed out, and an empty slot stays empty. -/
structure Retains (before after : Arena α) : Prop where
  nextIndex_le : before.nextIndex ≤ after.nextIndex
  get?_eq_none : ∀ index, index < before.nextIndex → before.get? index = none →
    after.get? index = none

namespace Retains

variable {before after later : Arena α}

theorem refl (arena : Arena α) : arena.Retains arena :=
  ⟨Nat.le_refl _, fun _ _ empty => empty⟩

theorem trans (first : before.Retains after) (second : after.Retains later) :
    before.Retains later where
  nextIndex_le := Nat.le_trans first.nextIndex_le second.nextIndex_le
  get?_eq_none index inside empty :=
    second.get?_eq_none index (Nat.lt_of_lt_of_le inside first.nextIndex_le)
      (first.get?_eq_none index inside empty)

/-- An insertion fills a slot that was not handed out. -/
theorem insert (arena : Arena α) (item : α) : arena.Retains (arena.insert item) where
  nextIndex_le := by simp
  get?_eq_none index inside empty := by
    rw [Arena.get?_insert, if_neg (Nat.ne_of_lt inside), empty]

theorem erase (arena : Arena α) (erased : Nat) : arena.Retains (arena.erase erased) where
  nextIndex_le := by simp
  get?_eq_none index inside empty := by rw [Arena.get?_erase, empty, ite_self]

theorem modify (arena : Arena α) (changed : Nat) (change : α → α) :
    arena.Retains (arena.modify changed change) where
  nextIndex_le := by simp
  get?_eq_none index inside empty := by
    rw [Arena.get?_modify, empty, Option.map_none, ite_self]

theorem filter (arena : Arena α) (keep : α → Bool) : arena.Retains (arena.filter keep) where
  nextIndex_le := by simp
  get?_eq_none index inside empty := by rw [Arena.get?_filter, empty, Option.filter_none]

theorem clear (arena : Arena α) : arena.Retains arena.clear where
  nextIndex_le := by simp
  get?_eq_none index _ _ := Arena.get?_clear arena index

end Retains

end Arena

namespace Graph

/-- Retired handles stay retired, those of nodes as well as those of connections. -/
structure Retains (before after : Graph) : Prop where
  nodes : before.nodeArena.Retains after.nodeArena
  connections : before.connectionArena.Retains after.connectionArena

namespace Retains

variable {before after : Graph}

/-- No elementary change brings a retired handle back. -/
theorem change (change : Change before after) : before.Retains after := by
  cases change with
  | insertNode draft => exact ⟨.insert _ _, .refl _⟩
  | eraseNode held => exact ⟨.erase _ _, .filter _ _⟩
  | insertConnection leaves enters => exact ⟨.refl _, .insert _ _⟩
  | eraseConnection id => exact ⟨.refl _, .erase _ _⟩
  | setDocument id document => exact ⟨.modify _ _ _, .refl _⟩
  | clear => exact ⟨.clear _, .clear _⟩

/-- No sequence of elementary changes brings a retired handle back. -/
theorem changes (changes : Changes before after) : before.Retains after := by
  induction changes with
  | refl => exact ⟨.refl _, .refl _⟩
  | tail _ change inductionHypothesis =>
      have last := Retains.change change
      exact ⟨inductionHypothesis.nodes.trans last.nodes,
        inductionHypothesis.connections.trans last.connections⟩

end Retains

/-- Behind a clear, every handle handed out before is retired for good. -/
theorem retired_of_changes_clear {graph after : Graph} (changes : Changes graph.clear after) :
    (∀ id node, graph.node? id = some node → after.node? id = none) ∧
      (∀ id connection, graph.connection? id = some connection → after.connection? id = none) := by
  have retains := Retains.changes changes
  constructor
  · intro id node held
    refine retains.nodes.get?_eq_none id.index ?_ (Arena.get?_clear _ _)
    simpa [clear] using Arena.lt_nextIndex_of_get? held
  · intro id connection held
    refine retains.connections.get?_eq_none id.index ?_ (Arena.get?_clear _ _)
    simpa [clear] using Arena.lt_nextIndex_of_get? held

end Graph

end MotionSteps
