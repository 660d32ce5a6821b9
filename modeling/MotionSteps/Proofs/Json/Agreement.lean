import MotionSteps.Proofs.Json.Carries

/-!
# Records that agree but for one field

A record is carried over to another field by field, whether the two are written as objects or as
arrays. `AgreeBut` says that two rows write records alike but for one field, in either form, and
`carries_of_agreeBut` compares what is read of them by what is read of this field.
-/

namespace MotionSteps.Json

variable {α ρ : Type} {form : RecordForm ρ} {kept : ρ → ρ → Prop}

/-- Two records are written alike but for one field. In an object this is what stands under a name
of the field, in an array the item at its position. -/
inductive AgreeBut (names : List String) (position : Nat) (same : List Token → List Token → Prop) :
    List Token → List Token → Prop where
  | refl {value : List Token} (isValue : IsValue value) : AgreeBut names position same value value
  | member {before after : List SpelledMember} {inside : List Char} {value other : List Token}
      (areBefore : AreMembers before) (areAfter : AreMembers after)
      (named : SpelledMember.IsNamed ⟨inside, value⟩ names) (agree : same value other) :
      AgreeBut names position same (objectTokens (before ++ ⟨inside, value⟩ :: after))
        (objectTokens (before ++ ⟨inside, other⟩ :: after))
  | item {before after : List (List Token)} {value other : List Token}
      (areBefore : ∀ tokens ∈ before, IsValue tokens) (areAfter : ∀ tokens ∈ after, IsValue tokens)
      (placed : before.length = position) (agree : same value other) :
      AgreeBut names position same (arrayTokens (before ++ value :: after))
        (arrayTokens (before ++ other :: after))

theorem AgreeBut.symm {names : List String} {position : Nat}
    {same : List Token → List Token → Prop}
    (turn : ∀ value other, same value other → same other value) {value other : List Token}
    (agree : AgreeBut names position same value other) : AgreeBut names position same other value := by
  cases agree with
  | refl isValue => exact .refl isValue
  | member areBefore areAfter named agree =>
      exact .member areBefore areAfter named (turn _ _ agree)
  | item areBefore areAfter placed agree => exact .item areBefore areAfter placed (turn _ _ agree)

/-! ## Fields -/

/-- What a field reads of a value into a record, it reads of another into one that is related. -/
def Field.Carries (kept : ρ → ρ → Prop) (field : Field ρ) (value other : List Token) : Prop :=
  ∀ record changed, kept record changed →
    Json.Carries (field.read record) (field.read changed) kept value other

theorem Field.carries_of {name : String} {aliases : List String} {required : Bool}
    {reader : Reader α} {put : ρ → α → ρ} {related : α → α → Prop}
    {value other : List Token} (carries : Json.Carries reader reader related value other)
    (goes : ∀ record changed held found, kept record changed → related held found →
      kept (put record held) (put changed found)) :
    (Field.of name aliases required reader put).Carries kept value other :=
  fun record changed same => carries.map fun held found => goes record changed held found same

/-! ## Objects -/

namespace RecordForm

/-- The same fields are given, and the records are related. -/
structure Draft.Kept (kept : ρ → ρ → Prop) (draft changed : Draft ρ) : Prop where
  given_eq : changed.given = draft.given
  record : kept draft.record changed.record

/-- Members of one key whose values are carried over by the fields that the key names. -/
structure Correspond (form : RecordForm ρ) (kept : ρ → ρ → Prop)
    (member other : SpelledMember) : Prop where
  isInside : IsInside member.inside
  isValue : IsValue member.value
  isOther : IsValue other.value
  inside_eq : other.inside = member.inside
  carries : ∀ field ∈ form.fields, member.IsNamed field.names →
    field.Carries kept member.value other.value

theorem Correspond.memberCarries {member other : SpelledMember}
    (correspond : form.Correspond kept member other) :
    MemberCarries form.member form.member (Draft.Kept kept) member other where
  isInside := correspond.isInside
  isValue := correspond.isValue
  inside_eq := correspond.inside_eq
  carries := by
    intro key draft changed reader spells same accepted
    obtain ⟨given_eq, record⟩ := same
    rw [RecordForm.member] at accepted ⊢
    split at accepted
    · next field found =>
        split at accepted
        · cases accepted
        · next fresh =>
            cases accepted
            have answers : field.answersTo key = true := by simpa using List.find?_some found
            have named := (SpelledMember.isNamed_iff spells).mpr (Field.answersTo_iff.mp answers)
            have carries :=
              correspond.carries field (List.mem_of_find?_eq_some found) named _ _ record
            refine ⟨_, if_neg (given_eq ▸ fresh), carries.map ?_⟩
            exact fun _ _ after => ⟨congrArg (field.name :: ·) given_eq, after⟩
    · cases accepted
      refine ⟨_, rfl, (carries_skim member.value correspond.isOther).map ?_⟩
      exact fun _ _ _ => ⟨given_eq, record⟩

theorem missing?_congr {draft changed : Draft ρ} (given_eq : changed.given = draft.given) :
    form.missing? changed = form.missing? draft := by
  rw [missing?, missing?, given_eq]

/-- An object is carried over to another with the same keys, member by member. -/
theorem carries_object (skims : ∀ field ∈ form.fields, ∀ record, (field.read record).Skims)
    (blank : kept form.blank form.blank) {members others : List SpelledMember}
    (each : List.Forall₂ (form.Correspond kept) members others) :
    Carries form.reader form.reader kept (objectTokens members) (objectTokens others) := by
  intro more text result rest _ spaced ran
  obtain ⟨behind, spacedMembers, isObject⟩ := Head.exists_read_object spaced
  simp only [reader, read, isObject, readNamed] at ran
  split at ran
  · cases ran
  next draft left ranMembers =>
  split at ran
  · cases ran
  next complete =>
  cases ran
  obtain ⟨found, same, taken⟩ := carries_readMembers (fun _ _ _ => skims_member skims)
    (each.imp fun _ _ => Correspond.memberCarries)
    (⟨rfl, blank⟩ : Draft.Kept kept ⟨[], form.blank⟩ ⟨[], form.blank⟩) spacedMembers ranMembers
  refine ⟨found.record, same.record, fun others otherText _ spacedOther => ?_⟩
  obtain ⟨start, spacedOthers, isObjectOther⟩ := Head.exists_read_object spacedOther
  obtain ⟨further, spacedFurther, ranOthers⟩ := taken spacedOthers
  have completeOther := (missing?_congr same.given_eq).trans complete
  exact ⟨further, spacedFurther, by
    simp only [reader, read, isObjectOther, readNamed, ranOthers, completeOther]⟩

end RecordForm

/-! ## Arrays -/

theorem Spaced.readEnd_eq {more : List Token} {text : List Char}
    (spaced : Spaced ([']'] :: more) text) :
    ∃ rest, Spaced more rest ∧ RecordForm.readEnd text = .ok rest := by
  obtain ⟨rest, others, seen⟩ := spaced.exists_skipBlanks rfl
  refine ⟨rest, others, ?_⟩
  rw [RecordForm.readEnd, seen]
  rfl

namespace RecordForm

/-- Behind the last field of a record its array has no items, or it is not read. -/
theorem items_eq_nil_of_readEnd {first : Bool} {items : List (List Token)}
    (values : ∀ tokens ∈ items, IsValue tokens) {more : List Token} {text rest : List Char}
    (spaced : Spaced (itemsTokens first items ++ more) text) (ended : readEnd text = .ok rest) :
    items = [] := by
  cases items with
  | nil => rfl
  | cons tokens items =>
      rw [itemsTokens, List.append_assoc, List.append_assoc] at spaced
      have begins := (values tokens List.mem_cons_self).begins.append
      cases first with
      | true =>
          obtain ⟨c, tail, inside, seen, -⟩ := spaced.exists_begins (begins _)
          obtain ⟨comma, bracket, -⟩ := not_closer_of_not_isDelimiter inside
          simp [readEnd, seen, comma, bracket] at ended
      | false =>
          obtain ⟨behind, others, seenComma⟩ := spaced.exists_skipBlanks rfl
          obtain ⟨c, tail, inside, seen, -⟩ := Spaced.exists_begins others (begins _)
          have bracket := (not_closer_of_not_isDelimiter inside).2.1
          simp [readEnd, seenComma, seen, bracket] at ended

/-- Items in the order of the fields are carried over one after the other. `pairs` holds an item
of the one array with the item of the other that stands at the same place. -/
theorem carries_readPositional {fields : List (Field ρ)}
    (skims : ∀ field ∈ fields, ∀ record, (field.read record).Skims)
    {pairs : List (List Token × List Token)}
    (values : ∀ pair ∈ pairs, IsValue pair.1 ∧ IsValue pair.2)
    (each : ∀ entry ∈ fields.zip pairs, entry.1.Carries kept entry.2.1 entry.2.2)
    {index : Nat} {record changed result : ρ} (before : kept record changed)
    {more : List Token} {text rest : List Char}
    (spaced : Spaced (itemsTokens (index == 0) (pairs.map Prod.fst) ++ more) text)
    (ran : form.readPositional index record fields text = .ok (result, rest)) :
    ∃ found, kept result found ∧ ∀ {more : List Token} {text : List Char},
      Spaced (itemsTokens (index == 0) (pairs.map Prod.snd) ++ more) text →
        ∃ rest, Spaced more rest ∧
          form.readPositional index changed fields text = .ok (found, rest) := by
  induction fields generalizing pairs index record changed text with
  | nil =>
      unfold readPositional at ran
      split at ran
      · cases ran
      next ended =>
      cases ran
      have items : pairs.map Prod.fst = [] :=
        items_eq_nil_of_readEnd (List.forall_mem_map.mpr fun pair listed => (values pair listed).1)
          spaced ended
      obtain rfl := List.map_eq_nil_iff.mp items
      refine ⟨changed, before, fun spacedOther => ?_⟩
      obtain ⟨left, spacedLeft, endedOther⟩ := spacedOther.readEnd_eq
      exact ⟨left, spacedLeft, by simp only [readPositional, endedOther]⟩
  | cons field fields inductionHypothesis =>
      cases pairs with
      | nil =>
          obtain ⟨_, -, finished⟩ := spaced.nextItem_finished (index == 0)
          simp only [readPositional, finished] at ran
          split at ran
          · cases ran
          next optional =>
          cases ran
          refine ⟨changed, before, fun spacedOther => ?_⟩
          obtain ⟨left, spacedLeft, finishedOther⟩ := spacedOther.nextItem_finished (index == 0)
          exact ⟨left, spacedLeft, by simp only [readPositional, finishedOther, optional]⟩
      | cons pair pairs =>
          obtain ⟨one, others⟩ := List.forall_mem_cons.mp skims
          obtain ⟨⟨isValue, isOther⟩, otherValues⟩ := List.forall_mem_cons.mp values
          obtain ⟨carries, carriesOthers⟩ : field.Carries kept pair.1 pair.2 ∧
              ∀ entry ∈ fields.zip pairs, entry.1.Carries kept entry.2.1 entry.2.2 :=
            List.forall_mem_cons.mp each
          rw [List.map_cons, itemsTokens, List.append_assoc, List.append_assoc] at spaced
          obtain ⟨start, spacedItem, another⟩ := spaced.nextItem_another (isValue.begins.append _)
          simp only [readPositional, another] at ran
          split at ran
          · cases ran
          next after behind read =>
          have closes := closes_itemsTokens (pairs.map Prod.fst) more
          obtain ⟨afterOther, same, takes⟩ := carries record changed before closes spacedItem read
          have spacedItems : Spaced (itemsTokens (index + 1 == 0) (pairs.map Prod.fst) ++ more)
              behind := (one record).spaced isValue closes spacedItem read
          obtain ⟨found, sameFound, taken⟩ :=
            inductionHypothesis others otherValues carriesOthers same spacedItems ran
          refine ⟨found, sameFound, fun {others otherText} spacedOther => ?_⟩
          rw [List.map_cons, itemsTokens, List.append_assoc, List.append_assoc] at spacedOther
          obtain ⟨startOther, spacedItemOther, anotherOther⟩ :=
            spacedOther.nextItem_another (isOther.begins.append _)
          obtain ⟨further, spacedFurther, readOther⟩ :=
            takes (closes_itemsTokens (pairs.map Prod.snd) others) spacedItemOther
          obtain ⟨left, spacedLeft, ranOther⟩ := taken spacedFurther
          exact ⟨left, spacedLeft, by simp only [readPositional, anotherOther, readOther, ranOther]⟩

/-- An array is carried over to another of the same length, field by field. -/
theorem carries_positional (skims : ∀ field ∈ form.fields, ∀ record, (field.read record).Skims)
    (blank : kept form.blank form.blank) {pairs : List (List Token × List Token)}
    (values : ∀ pair ∈ pairs, IsValue pair.1 ∧ IsValue pair.2)
    (each : ∀ entry ∈ form.fields.zip pairs, entry.1.Carries kept entry.2.1 entry.2.2) :
    Carries form.reader form.reader kept (arrayTokens (pairs.map Prod.fst))
      (arrayTokens (pairs.map Prod.snd)) := by
  intro more text result rest _ spaced ran
  obtain ⟨behind, spacedItems, isArray⟩ := Head.exists_read_array spaced
  simp only [reader, read, isArray] at ran
  obtain ⟨found, same, taken⟩ := carries_readPositional skims values each blank spacedItems ran
  refine ⟨found, same, fun others otherText _ spacedOther => ?_⟩
  obtain ⟨start, spacedOthers, isArrayOther⟩ := Head.exists_read_array spacedOther
  obtain ⟨left, spacedLeft, ranOther⟩ := taken spacedOthers
  exact ⟨left, spacedLeft, by simp only [reader, read, isArrayOther, ranOther]⟩

/-! ## Records -/

section

variable (skims : ∀ field ∈ form.fields, ∀ record, (field.read record).Skims)
  (blank : kept form.blank form.blank)
  (steady : ∀ field ∈ form.fields, ∀ value, IsValue value → field.Carries kept value value)

include steady

theorem correspond_self {members : List SpelledMember} (areMembers : AreMembers members) :
    List.Forall₂ (form.Correspond kept) members members :=
  List.forall₂_same.mpr fun member listed =>
    { isInside := areMembers.keys member listed
      isValue := areMembers.values member listed
      isOther := areMembers.values member listed
      inside_eq := rfl
      carries := fun field known _ =>
        steady field known member.value (areMembers.values member listed) }

/-- The items of an array are carried over to themselves by the fields that they stand for. -/
theorem carries_zip_self {fields : List (Field ρ)} (known : ∀ field ∈ fields, field ∈ form.fields)
    {items : List (List Token)} (values : ∀ tokens ∈ items, IsValue tokens) :
    ∀ entry ∈ fields.zip (items.map fun tokens => (tokens, tokens)),
      entry.1.Carries kept entry.2.1 entry.2.2 := by
  rintro ⟨field, pair⟩ listed
  obtain ⟨listedField, listedPair⟩ := List.of_mem_zip listed
  obtain ⟨tokens, listedTokens, rfl⟩ := List.mem_map.mp listedPair
  exact steady field (known field listedField) tokens (values tokens listedTokens)

/-- So do two arrays that differ in an item which its field carries over. -/
theorem carries_zip_hole {before after : List (List Token)} {field : Field ρ}
    (there : form.fields[before.length]? = some field) {value other : List Token}
    (carries : field.Carries kept value other) (areBefore : ∀ tokens ∈ before, IsValue tokens)
    (areAfter : ∀ tokens ∈ after, IsValue tokens) :
    ∀ entry ∈ form.fields.zip (before.map (fun tokens => (tokens, tokens)) ++
        (value, other) :: after.map (fun tokens => (tokens, tokens))),
      entry.1.Carries kept entry.2.1 entry.2.2 := by
  obtain ⟨inside, here⟩ := List.getElem?_eq_some_iff.mp there
  have fields_eq : form.fields =
      form.fields.take before.length ++ field :: form.fields.drop (before.length + 1) := by
    rw [← here, ← List.drop_eq_getElem_cons, List.take_append_drop]
  have lengths : (form.fields.take before.length).length =
      (before.map fun tokens => (tokens, tokens)).length := by
    rw [List.length_take, List.length_map]
    omega
  rw [fields_eq, List.zip_append lengths, List.zip_cons_cons]
  exact List.forall_mem_append.mpr
    ⟨carries_zip_self steady (fun _ => List.mem_of_mem_take) areBefore,
      List.forall_mem_cons.mpr
        ⟨carries, carries_zip_self steady (fun _ => List.mem_of_mem_drop) areAfter⟩⟩

include skims blank

/-- A record is steady if its fields are. -/
theorem steady_reader : form.reader.Steady kept := by
  intro value isValue
  cases isValue with
  | atom isAtom =>
      intro more text result rest closes spaced ran
      simp only [reader, read] at ran
      split at ran
      · cases ran
      · next read => exact (Head.isOf_of_read isAtom closes spaced read).2.elim
      · next read => exact (Head.isOf_of_read isAtom closes spaced read).2.elim
      · cases ran
  | @array items values =>
      have carries := carries_positional skims blank
        (List.forall_mem_map.mpr fun tokens listed => ⟨values tokens listed, values tokens listed⟩)
        (carries_zip_self steady (fun _ => id) values)
      simpa only [List.map_map, Function.comp_def, List.map_id'] using carries
  | object keys values => exact carries_object skims blank (correspond_self steady ⟨keys, values⟩)

end

/-- Rows that agree but for one field are carried over if the field carries over what it differs
in. -/
theorem carries_of_agreeBut (distinct : form.Distinct)
    (skims : ∀ field ∈ form.fields, ∀ record, (field.read record).Skims)
    (blank : kept form.blank form.blank)
    (steady : ∀ field ∈ form.fields, ∀ value, IsValue value → field.Carries kept value value)
    {position : Nat} {field : Field ρ} (there : form.fields[position]? = some field)
    {same : List Token → List Token → Prop}
    (differ : ∀ value other, same value other →
      IsValue value ∧ IsValue other ∧ field.Carries kept value other)
    {value other : List Token} (agree : AgreeBut field.names position same value other) :
    IsValue value ∧ IsValue other ∧ Carries form.reader form.reader kept value other := by
  cases agree with
  | refl isValue => exact ⟨isValue, isValue, steady_reader skims blank steady value isValue⟩
  | @member before after inside value other areBefore areAfter named agree =>
      obtain ⟨isValue, isOther, carries⟩ := differ value other agree
      obtain ⟨name, listedName, spells⟩ := named
      refine ⟨AreMembers.isValue (areBefore.append_cons spells.isInside isValue areAfter),
        AreMembers.isValue (areBefore.append_cons spells.isInside isOther areAfter),
        carries_object skims blank (List.rel_append (correspond_self steady areBefore)
          (.cons ⟨spells.isInside, isValue, isOther, rfl, fun known listed isNamed => ?_⟩
            (correspond_self steady areAfter)))⟩
      -- The key names one field only, the one that carries the values over.
      have namedKnown := (SpelledMember.isNamed_iff spells).mp isNamed
      obtain rfl := eq_of_mem_names distinct listed (List.mem_of_getElem? there) namedKnown
        listedName
      exact carries
  | @item before after value other areBefore areAfter placed agree =>
      obtain ⟨isValue, isOther, carries⟩ := differ value other agree
      have values : ∀ pair ∈ before.map (fun tokens => (tokens, tokens)) ++
          (value, other) :: after.map (fun tokens => (tokens, tokens)),
          IsValue pair.1 ∧ IsValue pair.2 :=
        List.forall_mem_append.mpr ⟨List.forall_mem_map.mpr fun tokens listed =>
          ⟨areBefore tokens listed, areBefore tokens listed⟩, List.forall_mem_cons.mpr
            ⟨⟨isValue, isOther⟩, List.forall_mem_map.mpr fun tokens listed =>
              ⟨areAfter tokens listed, areAfter tokens listed⟩⟩⟩
      have carried := carries_positional skims blank values
        (carries_zip_hole steady (placed ▸ there) carries areBefore areAfter)
      simp only [List.map_append, List.map_cons, List.map_map, Function.comp_def,
        List.map_id'] at carried
      refine ⟨.array ?_, .array ?_, carried⟩
      · exact List.forall_mem_append.mpr
          ⟨areBefore, List.forall_mem_cons.mpr ⟨isValue, areAfter⟩⟩
      · exact List.forall_mem_append.mpr
          ⟨areBefore, List.forall_mem_cons.mpr ⟨isOther, areAfter⟩⟩

end RecordForm

end MotionSteps.Json
