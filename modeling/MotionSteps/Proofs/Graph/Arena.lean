import Mathlib.Data.List.Sort
import MotionSteps.Graph.Arena
import MotionSteps.Proofs.Lists

/-!
# Arenas whose items know their slots

Where every item says at which index it stands, the work on slots is work on a list. Emptying
a slot leaves one item out and changing a slot changes one item, and the order stays. Which
slots are empty already plays no part.
-/

namespace MotionSteps.Arena

variable {α : Type}

/-- Change everything in the arena. -/
def map (arena : Arena α) (change : α → α) : Arena α :=
  ⟨arena.slots.map (Option.map change)⟩

@[simp] theorem nextIndex_map (arena : Arena α) (change : α → α) :
    (arena.map change).nextIndex = arena.nextIndex := by
  simp [map, nextIndex]

@[simp] theorem get?_map (arena : Arena α) (change : α → α) (index : Nat) :
    (arena.map change).get? index = (arena.get? index).map change := by
  simp only [map, get?, Array.getElem?_map]
  cases arena.slots[index]? <;> rfl

@[simp] theorem toList_map (arena : Arena α) (change : α → α) :
    (arena.map change).toList = arena.toList.map change := by
  simp only [map, toList, Array.toList_map, List.filterMap_map, List.map_filterMap]
  rfl

/-- Arenas are equal if they handed out as many indices and hold the same at each. -/
theorem ext_get? {first second : Arena α} (count : first.nextIndex = second.nextIndex)
    (same : ∀ index, first.get? index = second.get? index) : first = second := by
  obtain ⟨slots⟩ := first
  obtain ⟨others⟩ := second
  refine congrArg mk (Array.ext count ?_)
  intro index inside insideToo
  simpa [get?, inside, insideToo] using same index

/-- Emptied arenas are the same if they handed out as many indices. -/
theorem clear_eq_of_nextIndex_eq {first second : Arena α}
    (count : first.nextIndex = second.nextIndex) : first.clear = second.clear :=
  ext_get? (by simpa using count) fun index => by rw [get?_clear, get?_clear]

section InsertAll

variable {β : Type} (make : Nat → β → α)

/-- Fill the next slots one after another, each with what is made for its index. -/
def insertAll (arena : Arena α) (items : List β) : Arena α :=
  items.foldl (fun filled item => filled.insert (make filled.nextIndex item)) arena

@[simp] theorem insertAll_nil (arena : Arena α) : arena.insertAll make [] = arena := rfl

@[simp] theorem insertAll_cons (arena : Arena α) (item : β) (items : List β) :
    arena.insertAll make (item :: items) =
      (arena.insert (make arena.nextIndex item)).insertAll make items :=
  rfl

@[simp] theorem nextIndex_insertAll (arena : Arena α) (items : List β) :
    (arena.insertAll make items).nextIndex = arena.nextIndex + items.length := by
  induction items generalizing arena with
  | nil => rfl
  | cons item items inductionHypothesis =>
      rw [insertAll_cons, inductionHypothesis, nextIndex_insert, List.length_cons]
      omega

/-- The new items are listed behind the old ones, each made for its own index. -/
theorem toList_insertAll (arena : Arena α) (items : List β) :
    (arena.insertAll make items).toList =
      arena.toList ++ items.mapIdx fun position => make (arena.nextIndex + position) := by
  induction items generalizing arena with
  | nil => simp
  | cons item items inductionHypothesis =>
      simp [inductionHypothesis, List.mapIdx_cons, Nat.add_assoc, Nat.add_comm 1]

end InsertAll

variable {arena : Arena α} {slot : α → Nat}
  (placed : ∀ index item, arena.get? index = some item → slot item = index)

include placed

/-- The items are listed by their slots. -/
theorem slots_increasing : (arena.toList.map slot).Pairwise (· < ·) := by
  rw [List.pairwise_map]
  apply pairwise_toList
  intro first second firstItem secondItem earlier firstHeld secondHeld
  rw [placed first firstItem firstHeld, placed second secondItem secondHeld]
  exact earlier

theorem slots_nodup : (arena.toList.map slot).Nodup :=
  (slots_increasing placed).imp Nat.ne_of_lt

/-- The items are listed in the order in which their slots were handed out. -/
theorem slots_sublist : (arena.toList.map slot).Sublist (List.range arena.nextIndex) := by
  have handedOut : arena.toList.map slot ⊆ List.range arena.nextIndex := by
    intro index member
    obtain ⟨item, listed, rfl⟩ := List.mem_map.mp member
    obtain ⟨index, held⟩ := mem_toList_iff.mp listed
    rw [List.mem_range, placed index item held]
    exact lt_nextIndex_of_get? held
  exact List.sublist_of_subperm_of_pairwise
    (List.subperm_of_subset (slots_nodup placed) handedOut)
    ((slots_increasing placed).imp Nat.le_of_lt) (List.pairwise_lt_range.imp Nat.le_of_lt)

/-- The listed items are those that are held at their own slots. -/
theorem mem_toList_iff_get? {item : α} :
    item ∈ arena.toList ↔ arena.get? (slot item) = some item := by
  rw [mem_toList_iff]
  constructor
  · rintro ⟨index, held⟩
    rw [placed index item held]
    exact held
  · intro held
    exact ⟨slot item, held⟩

/-- A slot is looked up by looking for the item that belongs there. -/
theorem get?_eq_find? (index : Nat) :
    arena.get? index = arena.toList.find? fun item => slot item == index := by
  cases held : arena.get? index with
  | some item =>
      obtain rfl := placed index item held
      exact (find?_of_nodup_map (slots_nodup placed) ((mem_toList_iff_get? placed).mpr held)).symm
  | none =>
      refine (List.find?_eq_none.mpr ?_).symm
      intro item member same
      have heldThere := (mem_toList_iff_get? placed).mp member
      rw [eq_of_beq same, held] at heldThere
      cases heldThere

/-- To empty a slot is to leave out the item that belongs there. -/
theorem erase_eq_filter (erased : Nat) :
    arena.erase erased = arena.filter fun item => slot item != erased := by
  apply ext_get?
  · rw [nextIndex_erase, nextIndex_filter]
  intro index
  rw [get?_erase, get?_filter]
  cases held : arena.get? index with
  | none => simp
  | some item =>
      obtain rfl := placed index item held
      rw [Option.filter_some]
      by_cases here : erased = slot item
      · simp [here]
      · simp [here, Ne.symm here]

/-- To change a slot is to change the item that belongs there. -/
theorem modify_eq_map (changed : Nat) (change : α → α) :
    arena.modify changed change =
      arena.map fun item => if slot item = changed then change item else item := by
  apply ext_get?
  · rw [nextIndex_modify, nextIndex_map]
  intro index
  rw [get?_modify, get?_map]
  cases held : arena.get? index with
  | none => simp
  | some item =>
      obtain rfl := placed index item held
      by_cases here : changed = slot item
      · simp [here]
      · simp [here, Ne.symm here]

end MotionSteps.Arena
