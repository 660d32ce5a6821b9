import MotionSteps.Proofs.Json.RoundTrip
import MotionSteps.Proofs.Json.Yields

/-!
# The values that are read

A reader of free values yields values of one shape only: no more containers are open at once
than it allows, and every object lists its keys in ascending order. `Readable` is this shape.
`Readable.yields_value` shows that nothing else is yielded, and `Readable.reads` that a value
of the shape is read back as itself once it is printed, if its numbers are. An object whose
keys stand in another order is read as well, with its members put in order by
`Members.collect`.
-/

namespace MotionSteps.Json

variable {α σ : Type}

mutual

/-- The number of containers that stand one inside another in a value. -/
def depth : Json → Nat
  | .null | .bool _ | .number _ | .string _ => 0
  | .array items => itemsDepth items + 1
  | .object members => membersDepth members + 1

/-- The greatest depth of any of the items. -/
def itemsDepth : List Json → Nat
  | [] => 0
  | item :: items => max (depth item) (itemsDepth items)

/-- The greatest depth of any member. -/
def membersDepth : List (String × Json) → Nat
  | [] => 0
  | (_, value) :: members => max (depth value) (membersDepth members)

end

mutual

/-- The numbers in a value, in the order in which they are printed. -/
def numbers : Json → List Number
  | .null | .bool _ | .string _ => []
  | .number value => [value]
  | .array items => itemsNumbers items
  | .object members => membersNumbers members

/-- The numbers in the items. -/
def itemsNumbers : List Json → List Number
  | [] => []
  | item :: items => numbers item ++ itemsNumbers items

/-- The numbers in the members. -/
def membersNumbers : List (String × Json) → List Number
  | [] => []
  | (_, value) :: members => numbers value ++ membersNumbers members

end

theorem itemsDepth_le_iff {items : List Json} {limit : Nat} :
    itemsDepth items ≤ limit ↔ ∀ item ∈ items, item.depth ≤ limit := by
  induction items with
  | nil => simp [itemsDepth]
  | cons item items inductionHypothesis =>
      rw [itemsDepth, Nat.max_le, inductionHypothesis, List.forall_mem_cons]

theorem membersDepth_le_iff {members : Members} {limit : Nat} :
    membersDepth members ≤ limit ↔ ∀ member ∈ members, member.2.depth ≤ limit := by
  induction members with
  | nil => simp [membersDepth]
  | cons member members inductionHypothesis =>
      rw [membersDepth, Nat.max_le, inductionHypothesis, List.forall_mem_cons]

theorem itemsNumbers_eq (items : List Json) : itemsNumbers items = items.flatMap numbers := by
  induction items with
  | nil => rfl
  | cons item items inductionHypothesis =>
      rw [itemsNumbers, inductionHypothesis, List.flatMap_cons]

theorem membersNumbers_eq (members : Members) :
    membersNumbers members = members.flatMap fun member => numbers member.2 := by
  induction members with
  | nil => rfl
  | cons member members inductionHypothesis =>
      rw [membersNumbers, inductionHypothesis, List.flatMap_cons]

namespace Members

/-- The keys stand in ascending order, each once. -/
def Ascending (members : Members) : Prop :=
  members.Pairwise fun first second => first.1 < second.1

/-- Members put in order one after the other, as they come. -/
def collect (members : Members) : Members :=
  members.foldl (fun collected member => collected.insert member.1 member.2) []

@[simp] theorem get?_nil (key : String) : Members.get? [] key = none := rfl

@[simp] theorem get?_cons (first : String) (value : Json) (members : Members) (key : String) :
    Members.get? ((first, value) :: members) key =
      if first = key then some value else members.get? key := by
  by_cases same : first = key <;> simp [get?, same]

theorem eq_or_mem_of_mem_insert {key : String} {value : Json} {members : Members}
    {member : String × Json} (inserted : member ∈ members.insert key value) :
    member = (key, value) ∨ member ∈ members := by
  induction members with
  | nil => exact .inl (List.mem_singleton.mp inserted)
  | cons held members inductionHypothesis =>
      obtain ⟨first, kept⟩ := held
      unfold insert at inserted
      split at inserted
      · exact List.mem_cons.mp inserted
      · split at inserted
        · rcases List.mem_cons.mp inserted with new | old
          · exact .inl new
          · exact .inr (List.mem_cons_of_mem _ old)
        · rcases List.mem_cons.mp inserted with same | further
          · exact .inr (same ▸ List.mem_cons_self)
          · exact (inductionHypothesis further).imp_right (List.mem_cons_of_mem _)

theorem Ascending.insert {members : Members} (ascending : members.Ascending) (key : String)
    (value : Json) : (members.insert key value).Ascending := by
  induction members with
  | nil => exact List.pairwise_singleton _ _
  | cons held members inductionHypothesis =>
      obtain ⟨first, kept⟩ := held
      have others := List.pairwise_cons.mp ascending
      unfold Members.insert
      split
      · next before =>
          refine List.pairwise_cons.mpr ⟨?_, ascending⟩
          intro member listed
          rcases List.mem_cons.mp listed with rfl | further
          · exact before
          · exact String.lt_trans before (others.1 member further)
      · next notBefore =>
          split
          · next same => exact List.pairwise_cons.mpr ⟨same ▸ others.1, others.2⟩
          · next differs =>
              refine List.pairwise_cons.mpr ⟨?_, inductionHypothesis others.2⟩
              intro member inserted
              rcases eq_or_mem_of_mem_insert inserted with rfl | further
              · refine String.not_le.mp fun above => differs ?_
                exact String.le_antisymm above (String.not_lt.mp notBefore)
              · exact others.1 member further

/-- A key above all others goes to the end. -/
theorem insert_of_greater {key : String} {members : Members}
    (greater : ∀ member ∈ members, member.1 < key) (value : Json) :
    members.insert key value = members ++ [(key, value)] := by
  induction members with
  | nil => rfl
  | cons held members inductionHypothesis =>
      obtain ⟨first, kept⟩ := held
      obtain ⟨below, others⟩ := List.forall_mem_cons.mp greater
      rw [insert, if_neg (String.lt_asymm below), if_neg (String.ne_of_lt below).symm,
        inductionHypothesis others, List.cons_append]

theorem foldl_insert_of_ascending {collected members : Members} (ascending : members.Ascending)
    (below : ∀ held ∈ collected, ∀ member ∈ members, held.1 < member.1) :
    members.foldl (fun collected member => collected.insert member.1 member.2) collected =
      collected ++ members := by
  induction members generalizing collected with
  | nil => simp
  | cons member members inductionHypothesis =>
      obtain ⟨above, others⟩ := List.pairwise_cons.mp ascending
      rw [List.foldl_cons, insert_of_greater fun held listed => below held listed member (by simp),
        inductionHypothesis others, List.append_assoc]
      · rfl
      · intro held listed next further
        rcases List.mem_append.mp listed with old | new
        · exact below held old next (List.mem_cons_of_mem _ further)
        · rw [List.mem_singleton.mp new]
          exact above next further

theorem collect_of_ascending {members : Members} (ascending : members.Ascending) :
    members.collect = members := by
  rw [collect, foldl_insert_of_ascending ascending (by simp), List.nil_append]

/-- Putting members in order does not change what is found under a key that occurs once. -/
@[simp] theorem get?_collect {members : Members} (distinct : (members.map Prod.fst).Nodup)
    (key : String) : members.collect.get? key = members.get? key := by
  have gathered : ∀ collected : Members,
      (members.foldl (fun collected member => collected.insert member.1 member.2) collected).get?
        key = (members.get? key).or (collected.get? key) := by
    induction members with
    | nil => intro collected; rfl
    | cons member members inductionHypothesis =>
        intro collected
        obtain ⟨first, value⟩ := member
        obtain ⟨away, others⟩ := List.nodup_cons.mp distinct
        rw [List.foldl_cons, inductionHypothesis others]
        by_cases same : first = key
        · subst same
          have absent : Members.get? members first = none := by
            rw [get?, Option.map_eq_none_iff, List.find?_eq_none]
            intro other listed equal
            exact away (List.mem_map.mpr ⟨other, listed, eq_of_beq equal⟩)
          rw [absent, get?_insert_self, get?_cons, if_pos rfl]
          rfl
        · rw [get?_insert_of_ne value collected (Ne.symm same), get?_cons, if_neg same]
  rw [collect, gathered []]
  exact Option.or_none

end Members

/-- The values that open at most so many containers one inside another and list the keys of
every object in ascending order. -/
inductive Readable : Nat → Json → Prop where
  | null (depth : Nat) : Readable depth .null
  | bool (depth : Nat) (value : Bool) : Readable depth (.bool value)
  | number (depth : Nat) (value : Number) : Readable depth (.number value)
  | string (depth : Nat) (value : String) : Readable depth (.string value)
  | array {depth : Nat} {items : List Json} (each : ∀ item ∈ items, Readable depth item) :
      Readable (depth + 1) (.array items)
  | object {depth : Nat} {members : Members} (ascending : members.Ascending)
      (each : ∀ member ∈ members, Readable depth member.2) :
      Readable (depth + 1) (.object members)

namespace Readable

theorem empty (depth : Nat) : Readable (depth + 1) (.object []) :=
  .object List.Pairwise.nil (List.forall_mem_nil _)

theorem of_get? {depth : Nat} {members : Members}
    (readable : Readable (depth + 1) (.object members)) {key : String} {value : Json}
    (found : members.get? key = some value) : Readable depth value := by
  cases readable with
  | object ascending each =>
      obtain ⟨member, held, rfl⟩ := Option.map_eq_some_iff.mp found
      exact each member (List.mem_of_find?_eq_some held)

/-- A value that is readable at some depth is readable at its own. -/
theorem of_depth_le {limit depth : Nat} {value : Json} (readable : Readable depth value)
    (within : value.depth ≤ limit) : Readable limit value := by
  induction readable generalizing limit with
  | null => exact .null limit
  | bool _ value => exact .bool limit value
  | number _ value => exact .number limit value
  | string _ value => exact .string limit value
  | @array depth items each inductionHypothesis =>
      cases limit with
      | zero => simp [Json.depth] at within
      | succ limit =>
          rw [Json.depth, Nat.add_le_add_iff_right, itemsDepth_le_iff] at within
          exact .array fun item listed => inductionHypothesis item listed (within item listed)
  | @object depth members ascending each inductionHypothesis =>
      cases limit with
      | zero => simp [Json.depth] at within
      | succ limit =>
          rw [Json.depth, Nat.add_le_add_iff_right, membersDepth_le_iff] at within
          exact .object ascending fun member listed =>
            inductionHypothesis member listed (within member listed)

end Readable

/-! ## Nothing else is yielded -/

/-- An object in order stays one that is readable when a readable value is put into it. -/
theorem readable_insert {depth : Nat} {members : Members}
    (ordered : members.Ascending ∧ ∀ member ∈ members, Readable depth member.2) (key : String)
    {value : Json} (readable : Readable depth value) :
    (members.insert key value).Ascending ∧
      ∀ member ∈ members.insert key value, Readable depth member.2 := by
  refine ⟨ordered.1.insert key value, ?_⟩
  intro member listed
  rcases Members.eq_or_mem_of_mem_insert listed with rfl | held
  · exact readable
  · exact ordered.2 member held

namespace Readable

theorem yields_readValue_none ⦃text rest : List Char⦄ ⦃value : Json⦄
    (ran : readValue none text = .ok (value, rest)) : Readable 0 value := by
  unfold readValue at ran
  split at ran
  · cases ran
  · cases ran
    exact .null 0
  · cases ran
    exact .bool 0 _
  · cases ran
    exact .number 0 _
  · cases ran
    exact .string 0 _
  · cases ran
  · cases ran

theorem yields_readValue_some {depth : Nat} {nested : Reader Json}
    (each : nested.Yields (Readable depth)) ⦃text rest : List Char⦄ ⦃value : Json⦄
    (ran : readValue (some nested) text = .ok (value, rest)) : Readable (depth + 1) value := by
  unfold readValue at ran
  split at ran
  · cases ran
  · cases ran
    exact .null _
  · cases ran
    exact .bool _ _
  · cases ran
    exact .number _ _
  · cases ran
    exact .string _ _
  · dsimp only at ran
    split at ran
    · cases ran
    · next items behind inner =>
        cases ran
        exact .array (forall_mem_of_readItems each inner (List.forall_mem_nil _))
  · dsimp only at ran
    split at ran
    · cases ran
    · next members behind inner =>
        cases ran
        obtain ⟨ascending, readable⟩ : members.Ascending ∧
            ∀ member ∈ members, Readable depth member.2 := by
          refine invariant_of_readMembers
            (fun members => members.Ascending ∧ ∀ member ∈ members, Readable depth member.2)
            ?_ inner ?_
          · rintro members key reader ordered accepted
            cases accepted
            exact each.map fun value => readable_insert ordered key
          · exact ⟨List.Pairwise.nil, List.forall_mem_nil _⟩
        exact .object ascending readable

/-- A reader of free values yields readable values only. -/
theorem yields_value (depth : Nat) : (Reader.value depth).Yields (Readable depth) := by
  induction depth with
  | zero => exact fun text value rest ran => yields_readValue_none ran
  | succ depth inductionHypothesis =>
      exact fun text value rest ran => yields_readValue_some inductionHypothesis ran

theorem yields_valueOrNull (depth : Nat) :
    (Reader.valueOrNull depth).Yields fun found => ∀ value ∈ found, Readable depth value := by
  refine (yields_value depth).map fun value readable => ?_
  split
  · simp
  · simpa using readable

theorem of_parse {text : String} {value : Json} (parsed : parse text = .ok value) :
    Readable maxDepth value :=
  (yields_value maxDepth).of_parse parsed

end Readable

/-! ## Everything of the shape is read back -/

/-- The values of members are read, each under its own key. -/
def MembersRead (limit : Nat) : Members → Members → Prop :=
  List.Forall₂ fun member result =>
    member.1 = result.1 ∧ Reads (Reader.value limit) member.2 result.2

theorem MembersRead.cons {limit : Nat} {key : String} {value result : Json}
    {members results : Members} (read : Reads (Reader.value limit) value result)
    (others : MembersRead limit members results) :
    MembersRead limit ((key, value) :: members) ((key, result) :: results) :=
  List.Forall₂.cons ⟨rfl, read⟩ others

namespace Reads

/-- A value that is no container is read at every depth. -/
theorem scalar {value result : Json} (head : Head)
    (begins : ∀ (layout : Layout) (depth : Nat) (blanks rest : List Char),
      Separators blanks → Delimited rest →
        Head.read (blanks ++ (chars layout depth value ++ rest)) = .ok (head, rest))
    (yields : ∀ (nested : Option (Reader Json)) (text rest : List Char),
      Head.read text = .ok (head, rest) → readValue nested text = .ok (result, rest))
    (limit : Nat) : Reads (Reader.value limit) value result := by
  intro layout lawful depth blanks rest blank delimited
  have begun := begins layout depth blanks rest blank delimited
  cases limit with
  | zero => exact yields none _ _ begun
  | succ limit => exact yields (some (Reader.value limit)) _ _ begun

theorem null (limit : Nat) : Reads (Reader.value limit) .null .null := by
  refine scalar .null ?_ ?_ limit
  · intro layout depth blanks rest blank _
    exact Head.read_append blank rfl
  · intro nested text rest begun
    simp only [readValue, begun]

theorem bool (value : Bool) (limit : Nat) :
    Reads (Reader.value limit) (.bool value) (.bool value) := by
  refine scalar (.bool value) ?_ ?_ limit
  · intro layout depth blanks rest blank _
    cases value <;> exact Head.read_append blank rfl
  · intro nested text rest begun
    simp only [readValue, begun]

theorem number {number found : Number} (same : number.reread? = some found) (limit : Nat) :
    Reads (Reader.value limit) (.number number) (.number found) := by
  refine scalar (.number found) ?_ ?_ limit
  · intro layout depth blanks rest blank delimited
    exact Head.read_number blank same delimited
  · intro nested text rest begun
    simp only [readValue, begun]

theorem text (text : String) (limit : Nat) :
    Reads (Reader.value limit) (.string text) (.string text) := by
  refine scalar (.string text) ?_ ?_ limit
  · intro layout depth blanks rest blank _
    exact Head.read_string blank text rest
  · intro nested text rest begun
    simp only [readValue, begun]

theorem items {values results : List Json} {limit : Nat}
    (each : List.Forall₂ (Reads (Reader.value limit)) values results) :
    Reads (Reader.value (limit + 1)) (.array values) (.array results) := by
  intro layout lawful depth blanks rest blank delimited
  obtain ⟨body, text, ran⟩ := exists_arrayBody lawful each depth rest
  have bracket : Head.read (blanks ++ '[' :: (body ++ rest)) = .ok (.array, body ++ rest) :=
    Head.read_append blank rfl
  simp only [Reader.value, readValue, text, List.cons_append, bracket, ran]

theorem absorbs_insert {limit : Nat} {members results : Members}
    (each : MembersRead limit members results) (collected : Members) :
    Absorbs (fun members key => .ok ((Reader.value limit).map (Members.insert key · members)))
      collected members
      (results.foldl (fun collected member => collected.insert member.1 member.2) collected) := by
  induction each generalizing collected with
  | nil => exact .nil collected
  | @cons member result members results one _ inductionHypothesis =>
      obtain ⟨key, value⟩ := member
      obtain ⟨same, read⟩ := one
      dsimp only at same
      subst same
      exact .cons rfl (read.map _) (inductionHypothesis _)

/-- An object is read as its members put in order. -/
theorem members {members results : Members} {limit : Nat}
    (each : MembersRead limit members results) :
    Reads (Reader.value (limit + 1)) (.object members) (.object results.collect) := by
  intro layout lawful depth blanks rest blank delimited
  obtain ⟨body, text, ran⟩ := exists_objectBody lawful (absorbs_insert each []) depth rest
  have brace : Head.read (blanks ++ '\x7b' :: (body ++ rest)) = .ok (.object, body ++ rest) :=
    Head.read_append blank rfl
  simp only [Reader.value, readValue, text, List.cons_append, brace, ran,
    Members.collect]

theorem valueOrNull {value result : Json} {limit : Nat}
    (read : Reads (Reader.value limit) value result) (filled : result ≠ .null) :
    Reads (Reader.valueOrNull limit) value (some result) := by
  have mapped : Reads (Reader.valueOrNull limit) value _ := read.map _
  cases result with
  | null => exact absurd rfl filled
  | _ => exact mapped

end Reads

/-- A number that is read back as it was. -/
def Number.ReadsBack (number : Number) : Prop :=
  number.reread? = some number

instance (number : Number) : Decidable number.ReadsBack :=
  inferInstanceAs (Decidable (_ = _))

/-- A readable value is read back as it was if each of its numbers is. -/
theorem Readable.reads {limit : Nat} {value : Json} (readable : Readable limit value)
    (exact : ∀ number ∈ value.numbers, number.ReadsBack) :
    Reads (Reader.value limit) value value := by
  -- The reader loses a level wherever the shape does.
  induction readable with
  | null limit => exact Reads.null limit
  | bool limit value => exact Reads.bool value limit
  | number limit value => exact Reads.number (exact value (by simp [numbers])) limit
  | string limit value => exact Reads.text value limit
  | array _ inductionHypothesis =>
      refine Reads.items (List.forall₂_same.mpr fun item listed => ?_)
      refine inductionHypothesis item listed fun number within => exact number ?_
      rw [numbers, itemsNumbers_eq]
      exact List.mem_flatMap.mpr ⟨item, listed, within⟩
  | @object limit members ascending _ inductionHypothesis =>
      have each : MembersRead limit members members := by
        refine List.forall₂_same.mpr fun member listed => ⟨rfl, ?_⟩
        refine inductionHypothesis member listed fun number within => exact number ?_
        rw [numbers, membersNumbers_eq]
        exact List.mem_flatMap.mpr ⟨member, listed, within⟩
      have read := Reads.members each
      rwa [Members.collect_of_ascending ascending] at read

end MotionSteps.Json
