/-!
# Arenas

An arena hands out an index for everything that is put into it and never hands out
the same index again. What is taken out leaves its slot empty, so the order of the
slots is always the order of insertion.
-/

namespace MotionSteps

/-- Slots that are filled once, in order, and may be emptied. -/
structure Arena (α : Type) where
  slots : Array (Option α)
  deriving Repr

namespace Arena

variable {α : Type}

/-- An arena into which nothing was ever put. -/
def empty : Arena α :=
  ⟨#[]⟩

/-- The index that the next insertion hands out: the number of insertions so far. It has no bound,
so no index is handed out twice; an index that is cut down to 32 bits is this one while fewer than
2^32 were handed out. -/
def nextIndex (arena : Arena α) : Nat :=
  arena.slots.size

/-- Fill the next slot. -/
def insert (arena : Arena α) (item : α) : Arena α :=
  ⟨arena.slots.push (some item)⟩

/-- What the slot at an index holds. -/
def get? (arena : Arena α) (index : Nat) : Option α :=
  arena.slots[index]?.join

/-- Everything in the arena, in order of insertion. -/
def toList (arena : Arena α) : List α :=
  arena.slots.toList.filterMap id

/-- Empty the slot at an index. -/
def erase (arena : Arena α) (index : Nat) : Arena α :=
  ⟨arena.slots.setIfInBounds index none⟩

/-- Change what the slot at an index holds. -/
def modify (arena : Arena α) (index : Nat) (change : α → α) : Arena α :=
  ⟨arena.slots.modify index (Option.map change)⟩

/-- Empty the slots whose content does not pass a test. -/
def filter (arena : Arena α) (keep : α → Bool) : Arena α :=
  ⟨arena.slots.map (Option.filter keep)⟩

/-- Empty every slot. Their indices stay handed out. -/
def clear (arena : Arena α) : Arena α :=
  ⟨arena.slots.map fun _ => none⟩

@[simp] theorem toList_empty : (empty : Arena α).toList = [] := rfl

@[simp] theorem toList_insert (arena : Arena α) (item : α) :
    (arena.insert item).toList = arena.toList ++ [item] := by
  simp [insert, toList]

@[simp] theorem nextIndex_insert (arena : Arena α) (item : α) :
    (arena.insert item).nextIndex = arena.nextIndex + 1 := by
  simp [insert, nextIndex]

/-- Nothing was ever put into the empty arena. -/
@[simp] theorem get?_empty (index : Nat) : (empty : Arena α).get? index = none := rfl

/-- An insertion fills the next slot and no other. -/
theorem get?_insert (arena : Arena α) (item : α) (index : Nat) :
    (arena.insert item).get? index =
      if index = arena.nextIndex then some item else arena.get? index := by
  simp only [insert, get?, nextIndex, Array.getElem?_push]
  by_cases fresh : index = arena.slots.size
  · simp [fresh]
  · simp [fresh]

/-- Only indices that were handed out hold anything. -/
theorem get?_eq_none_of_le {arena : Arena α} {index : Nat} (fresh : arena.nextIndex ≤ index) :
    arena.get? index = none := by
  have absent : arena.slots[index]? = none := Array.getElem?_eq_none fresh
  simp [get?, absent]

/-- What a slot holds is at an index that was handed out. -/
theorem lt_nextIndex_of_get? {arena : Arena α} {index : Nat} {item : α}
    (held : arena.get? index = some item) : index < arena.nextIndex := by
  by_cases fresh : arena.nextIndex ≤ index
  · rw [get?_eq_none_of_le fresh] at held
    cases held
  · omega

/-- The list of an arena holds what its slots hold. -/
theorem mem_toList_iff {arena : Arena α} {item : α} :
    item ∈ arena.toList ↔ ∃ index, arena.get? index = some item := by
  simp only [toList, get?, List.mem_filterMap, Array.mem_toList_iff, Array.mem_iff_getElem?, id,
    Option.join_eq_some_iff]
  constructor
  · rintro ⟨slot, ⟨index, found⟩, rfl⟩
    exact ⟨index, found⟩
  · rintro ⟨index, found⟩
    exact ⟨some item, ⟨index, found⟩, rfl⟩

/-- A relation that holds from every slot to every later one orders the list of an arena. -/
theorem pairwise_toList {arena : Arena α} {before : α → α → Prop}
    (ordered : ∀ first second firstItem secondItem, first < second →
      arena.get? first = some firstItem → arena.get? second = some secondItem →
        before firstItem secondItem) :
    arena.toList.Pairwise before := by
  have held : ∀ index item (bound : index < arena.slots.toList.length),
      arena.slots.toList[index] = some item → arena.get? index = some item := by
    intro index item bound slot
    rw [Array.length_toList] at bound
    rw [Array.getElem_toList] at slot
    rw [get?, Array.getElem?_eq_getElem bound, slot]
    rfl
  rw [toList, List.pairwise_filterMap, List.pairwise_iff_getElem]
  intro first second firstBound secondBound earlier firstItem firstSlot secondItem secondSlot
  exact ordered first second firstItem secondItem earlier
    (held first firstItem firstBound firstSlot) (held second secondItem secondBound secondSlot)

/-- Erasing empties one slot and keeps every other. -/
theorem get?_erase (arena : Arena α) (erased index : Nat) :
    (arena.erase erased).get? index =
      if erased = index then none else arena.get? index := by
  simp only [erase, get?, Array.getElem?_setIfInBounds]
  split
  · split <;> rfl
  · rfl

/-- A change of one slot keeps every other. -/
theorem get?_modify (arena : Arena α) (changed : Nat) (change : α → α) (index : Nat) :
    (arena.modify changed change).get? index =
      if changed = index then (arena.get? index).map change else arena.get? index := by
  simp only [modify, get?, Array.getElem?_modify]
  split
  · cases arena.slots[index]? <;> rfl
  · rfl

@[simp] theorem nextIndex_modify (arena : Arena α) (changed : Nat) (change : α → α) :
    (arena.modify changed change).nextIndex = arena.nextIndex := by
  simp [modify, nextIndex]

@[simp] theorem nextIndex_erase (arena : Arena α) (index : Nat) :
    (arena.erase index).nextIndex = arena.nextIndex := by
  simp [erase, nextIndex]

@[simp] theorem toList_clear (arena : Arena α) : arena.clear.toList = [] := by
  simp [clear, toList]

@[simp] theorem nextIndex_clear (arena : Arena α) : arena.clear.nextIndex = arena.nextIndex := by
  simp [clear, nextIndex]

@[simp] theorem get?_clear (arena : Arena α) (index : Nat) : arena.clear.get? index = none := by
  simp only [clear, get?, Array.getElem?_map]
  cases arena.slots[index]? <;> rfl

@[simp] theorem get?_filter (arena : Arena α) (keep : α → Bool) (index : Nat) :
    (arena.filter keep).get? index = (arena.get? index).filter keep := by
  simp only [filter, get?, Array.getElem?_map]
  cases arena.slots[index]? <;> rfl

@[simp] theorem nextIndex_filter (arena : Arena α) (keep : α → Bool) :
    (arena.filter keep).nextIndex = arena.nextIndex := by
  simp [filter, nextIndex]

@[simp] theorem toList_filter (arena : Arena α) (keep : α → Bool) :
    (arena.filter keep).toList = arena.toList.filter keep := by
  simp only [filter, toList, Array.toList_map, List.filterMap_map, List.filter_filterMap]
  congr 1

end Arena

end MotionSteps
