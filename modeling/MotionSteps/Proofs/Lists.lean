import Mathlib.Data.List.Nodup
import Mathlib.Data.List.Perm.Basic

/-!
# Keys and positions in lists

Items that are told apart by a key are found by it, a selection that drops nothing keeps every
position, and a selection in the order of a list without repetitions is told by its members.
-/

namespace MotionSteps

/-- Looking up the key of an item finds that item if no key occurs twice. -/
theorem find?_of_nodup_map {α β : Type} [BEq β] [LawfulBEq β] {key : α → β} {items : List α}
    (distinct : (items.map key).Nodup) {item : α} (member : item ∈ items) :
    items.find? (fun other => key other == key item) = some item := by
  induction items with
  | nil => cases member
  | cons first rest inductionHypothesis =>
      obtain ⟨fresh, distinctRest⟩ := List.nodup_cons.mp distinct
      rcases List.mem_cons.mp member with rfl | later
      · exact List.find?_cons_of_pos (beq_self_eq_true (key item))
      · have other : key first ≠ key item := by
          intro same
          exact fresh (same ▸ List.mem_map_of_mem later)
        rw [List.find?_cons_of_neg (by simpa using other)]
        exact inductionHypothesis distinctRest later

/-- What stems from the items of a list is, as far as it bears the key of one item, what stems
from that item if no key occurs twice. -/
theorem filter_flatMap_of_nodup_map {α β γ : Type} [BEq β] [LawfulBEq β] {key : α → β}
    {items : List α} {expand : α → List γ} {keep : γ → Bool} {item : α}
    (distinct : (items.map key).Nodup) (member : item ∈ items)
    (marked : ∀ other ∈ items, ∀ result ∈ expand other, keep result = (key other == key item)) :
    (items.flatMap expand).filter keep = expand item := by
  induction items with
  | nil => cases member
  | cons first rest inductionHypothesis =>
      obtain ⟨fresh, distinctRest⟩ := List.nodup_cons.mp distinct
      have markedRest : ∀ other ∈ rest, ∀ result ∈ expand other,
          keep result = (key other == key item) :=
        fun other later => marked other (List.mem_cons_of_mem _ later)
      have apart : ∀ other ∈ rest, key other ≠ key first :=
        fun other later same => fresh (same ▸ List.mem_map_of_mem later)
      rw [List.flatMap_cons, List.filter_append]
      rcases List.mem_cons.mp member with rfl | later
      · have here : (expand item).filter keep = expand item := by
          refine List.filter_eq_self.mpr fun result stems => ?_
          rw [marked item List.mem_cons_self result stems, beq_self_eq_true]
        have behind : (rest.flatMap expand).filter keep = [] := by
          refine List.filter_eq_nil_iff.mpr fun result listed => ?_
          obtain ⟨other, later, stems⟩ := List.mem_flatMap.mp listed
          simp [markedRest other later result stems, apart other later]
        rw [here, behind, List.append_nil]
      · have here : (expand first).filter keep = [] := by
          refine List.filter_eq_nil_iff.mpr fun result stems => ?_
          simp [marked first List.mem_cons_self result stems, (apart item later).symm]
        rw [here, List.nil_append, inductionHypothesis distinctRest later markedRest]

/-- Items are a selection of others, in their order, if their keys are. -/
theorem sublist_of_sublist_map {α β : Type} {key : α → β} (apart : Function.Injective key)
    {items others : List α} (selected : (items.map key).Sublist (others.map key)) :
    items.Sublist others := by
  obtain ⟨chosen, fromOthers, same⟩ := List.sublist_map_iff.mp selected
  rwa [List.map_injective_iff.mpr apart same]

/-- Two selections of the same members from a list without repetitions are the same. -/
theorem eq_of_sublist_of_nodup {α : Type} {base first second : List α} (distinct : base.Nodup)
    (selectedFirst : first.Sublist base) (selectedSecond : second.Sublist base)
    (same : ∀ item, item ∈ first ↔ item ∈ second) : first = second := by
  refine (distinct.perm_iff_eq_of_sublist selectedFirst selectedSecond).mp ?_
  exact (List.perm_ext_iff_of_nodup (distinct.sublist selectedFirst)
    (distinct.sublist selectedSecond)).mpr same

/-- Sorting by a key puts the keys in ascending order. -/
theorem pairwise_mergeSort_key {α : Type} (key : α → Nat) (items : List α) :
    (items.mergeSort fun first second => key first ≤ key second).Pairwise fun first second =>
      key first ≤ key second := by
  refine (List.pairwise_mergeSort ?_ ?_ items).imp of_decide_eq_true
  · intro first second third
    simp only [decide_eq_true_eq]
    exact Nat.le_trans
  · intro first second
    simpa using Nat.le_total (key first) (key second)

/-- Items in the order of their places in a list are a selection from it. -/
theorem sublist_of_pairwise_idxOf {α : Type} [BEq α] [LawfulBEq α] {base items : List α}
    (distinctBase : base.Nodup) (distinct : items.Nodup) (within : items ⊆ base)
    (ordered : items.Pairwise fun first second => base.idxOf first ≤ base.idxOf second) :
    items.Sublist base := by
  have placed : base.Pairwise fun first second => base.idxOf first ≤ base.idxOf second := by
    refine List.pairwise_iff_getElem.mpr fun first second _ _ before => ?_
    rw [distinctBase.idxOf_getElem, distinctBase.idxOf_getElem]
    exact Nat.le_of_lt before
  have selected : items = base.filter items.contains := by
    refine List.Perm.eq_of_pairwise ?_ ordered (placed.sublist List.filter_sublist) ?_
    · intro first second member _ before after
      exact (List.idxOf_inj (within member)).mp (Nat.le_antisymm before after)
    · refine (List.perm_ext_iff_of_nodup distinct (distinctBase.filter _)).mpr fun item => ?_
      rw [List.mem_filter, List.contains_iff_mem]
      exact ⟨fun member => ⟨within member, member⟩, And.right⟩
  rw [selected]
  exact List.filter_sublist

/-- An item behind which there is none is the last. -/
theorem getLast?_of_getElem? {α : Type} {items : List α} {position : Nat} {item : α}
    (there : items[position]? = some item) (behind : items[position + 1]? = none) :
    items.getLast? = some item := by
  obtain ⟨inside, -⟩ := List.getElem?_eq_some_iff.mp there
  have beyond := List.getElem?_eq_none_iff.mp behind
  rw [List.getLast?_eq_getElem?, show items.length - 1 = position by omega, there]

/-- A `filterMap` that drops nothing keeps every position. -/
theorem getElem?_filterMap_of_isSome {α β : Type} {select : α → Option β} {items : List α}
    (kept : ∀ item ∈ items, (select item).isSome) (position : Nat) :
    (items.filterMap select)[position]? = items[position]?.bind select := by
  induction items generalizing position with
  | nil => rfl
  | cons item items inductionHypothesis =>
      obtain ⟨selected, same⟩ := Option.isSome_iff_exists.mp (kept item List.mem_cons_self)
      rw [List.filterMap_cons_some same]
      cases position with
      | zero => exact same.symm
      | succ position =>
          exact inductionHypothesis (fun other member => kept other (List.mem_cons_of_mem _ member))
            position

/-- A `filterMap` that drops nothing relates every item to what is selected for it. -/
theorem forall₂_filterMap {α β : Type} {select : α → Option β} {related : α → β → Prop}
    {items : List α}
    (kept : ∀ item ∈ items, ∃ result, select item = some result ∧ related item result) :
    List.Forall₂ related items (items.filterMap select) := by
  induction items with
  | nil => exact .nil
  | cons item items inductionHypothesis =>
      obtain ⟨result, selected, holds⟩ := kept item List.mem_cons_self
      rw [List.filterMap_cons_some selected]
      exact .cons holds
        (inductionHypothesis fun other member => kept other (List.mem_cons_of_mem _ member))

/-- What is related item by item has something related to each item. -/
theorem exists_mem_of_forall₂ {α β : Type} {related : α → β → Prop} {items : List α}
    {results : List β} (alike : List.Forall₂ related items results) {item : α}
    (member : item ∈ items) : ∃ result ∈ results, related item result := by
  induction alike with
  | nil => cases member
  | cons holds _ inductionHypothesis =>
      rcases List.mem_cons.mp member with rfl | later
      · exact ⟨_, List.mem_cons_self, holds⟩
      · obtain ⟨result, listed, relatedToo⟩ := inductionHypothesis later
        exact ⟨result, List.mem_cons_of_mem _ listed, relatedToo⟩

/-- What is made of related items for their positions is related. -/
theorem forall₂_mapIdx {α β γ δ : Type} {related : α → β → Prop} {further : γ → δ → Prop}
    {items : List α} {others : List β} {make : Nat → α → γ} {makeOther : Nat → β → δ}
    (alike : List.Forall₂ related items others)
    (goes : ∀ position item other, related item other →
      further (make position item) (makeOther position other)) :
    List.Forall₂ further (items.mapIdx make) (others.mapIdx makeOther) := by
  induction alike generalizing make makeOther with
  | nil => exact .nil
  | cons holds _ inductionHypothesis =>
      rw [List.mapIdx_cons, List.mapIdx_cons]
      exact .cons (goes 0 _ _ holds)
        (inductionHypothesis fun position => goes (position + 1))

/-- What is made of related items alike is the same list. -/
theorem map_eq_map_of_forall₂ {α β γ : Type} {related : α → β → Prop} {items : List α}
    {others : List β} {make : α → γ} {makeOther : β → γ} (alike : List.Forall₂ related items others)
    (same : ∀ item other, related item other → makeOther other = make item) :
    others.map makeOther = items.map make := by
  induction alike with
  | nil => rfl
  | cons holds _ inductionHypothesis =>
      rw [List.map_cons, List.map_cons, same _ _ holds, inductionHypothesis]

/-- What is selected stays in order when those with a mark are moved to the front, if all that is
selected is marked or none of it. -/
theorem filter_append_filter_of_uniform {α : Type} {items : List α} {keep mark : α → Bool}
    (alike : ∃ value, ∀ item ∈ items, keep item = true → mark item = value) :
    (items.filter mark ++ items.filter fun item => !mark item).filter keep =
      items.filter keep := by
  obtain ⟨value, uniform⟩ := alike
  have marked : ∀ item ∈ items, (keep item && mark item) = (keep item && value) := by
    intro item member
    cases kept : keep item with
    | false => rfl
    | true => rw [uniform item member kept]
  have unmarked : ∀ item ∈ items, (keep item && !mark item) = (keep item && !value) := by
    intro item member
    cases kept : keep item with
    | false => rfl
    | true => rw [uniform item member kept]
  rw [List.filter_append, List.filter_filter, List.filter_filter, List.filter_congr marked,
    List.filter_congr unmarked]
  cases value <;> simp

/-- What bears some of the keys, taken key by key, is all that bears one of them, if no key is
listed twice and nothing bears two. -/
theorem flatMap_filter_perm {α β : Type} {bears : α → β → Bool} {keys : List β}
    (distinct : keys.Nodup)
    (apart : ∀ item first second, bears item first = true → bears item second = true →
      first = second)
    (items : List α) :
    (keys.flatMap fun key => items.filter fun item => bears item key).Perm
      (items.filter fun item => keys.any (bears item)) := by
  induction keys with
  | nil => simp
  | cons key keys inductionHypothesis =>
      obtain ⟨fresh, distinctRest⟩ := List.nodup_cons.mp distinct
      have others : ∀ item, bears item key = true → keys.any (bears item) = false := by
        intro item marked
        refine List.any_eq_false.mpr fun other listed again => fresh ?_
        rwa [apart item key other marked again]
      have here : (items.filter fun item => (key :: keys).any (bears item)).filter
          (fun item => bears item key) = items.filter fun item => bears item key := by
        rw [List.filter_filter]
        refine List.filter_congr fun item _ => ?_
        cases marked : bears item key <;> simp [marked]
      have behind : (items.filter fun item => (key :: keys).any (bears item)).filter
          (fun item => !bears item key) = items.filter fun item => keys.any (bears item) := by
        rw [List.filter_filter]
        refine List.filter_congr fun item _ => ?_
        cases marked : bears item key with
        | false => simp [marked]
        | true => rw [others item marked]; simp
      rw [List.flatMap_cons]
      refine ((inductionHypothesis distinctRest).append_left _).trans ?_
      rw [← here, ← behind]
      exact List.filter_append_perm _ _

/-- Where items are tagged and marked alike, those with certain marks are tagged alike. -/
theorem map_filter_eq_of_map_eq {α β γ : Type} {items others : List α} {tag tagOther : α → β}
    {mark : α → γ}
    (same : others.map (fun other => (tagOther other, mark other)) =
      items.map fun item => (tag item, mark item)) (keep : γ → Bool) :
    (others.filter fun other => keep (mark other)).map tagOther =
      (items.filter fun item => keep (mark item)).map tag := by
  have kept := congrArg (fun pairs => (pairs.filter fun pair => keep pair.2).map Prod.fst) same
  simpa only [List.filter_map, List.map_map, Function.comp_def] using kept

end MotionSteps
